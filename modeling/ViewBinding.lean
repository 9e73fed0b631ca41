import ViewBinding.View.Dispatch
import ViewBinding.Proofs.Session.Edit
import ViewBinding.Proofs.Session.Failure
import ViewBinding.Proofs.Tree.Layout
import ViewBinding.Proofs.FieldList.Page
import ViewBinding.Proofs.FieldList.Rows
import ViewBinding.Proofs.Binding.Entry
import ViewBinding.Proofs.Binding.Source
import ViewBinding.Proofs.Binding.Written
import ViewBinding.Proofs.Binding.Parts
import ViewBinding.Proofs.Binding.Call
import ViewBinding.Proofs.FieldList.Pass
import ViewBinding.Proofs.FieldList.Change
import ViewBinding.Proofs.Page.Bubbling
import ViewBinding.Proofs.Page.Handles
import ViewBinding.Proofs.Page.Apart
import ViewBinding.Proofs.Page.Attributes
import ViewBinding.Proofs.Page.Convergence
import ViewBinding.Proofs.Page.Counter
import ViewBinding.Proofs.Page.Flags
import ViewBinding.Proofs.Page.Group
import ViewBinding.Proofs.Page.Losses
import ViewBinding.Proofs.Page.Name
import ViewBinding.Proofs.Page.Property
import ViewBinding.Proofs.Page.Rebuilt
import ViewBinding.Proofs.Page.Selected
import ViewBinding.Proofs.Expr.Confined
import ViewBinding.Proofs.Expr.Precedence
import ViewBinding.Proofs.Value.Json
import ViewBinding.Proofs.Document.Dump
import ViewBinding.Proofs.Document.ContentModel
import ViewBinding.Proofs.Listener
import ViewBinding.Proofs.Builtin.Bounds
import ViewBinding.Proofs.Value.Equality
import ViewBinding.Proofs.Value.Record
import ViewBinding.Proofs.Page.Scanned
import ViewBinding.Proofs.Page.Copied
import ViewBinding.Proofs.Markup.Progress
import ViewBinding.Proofs.Render.PassSucceeds
import ViewBinding.Proofs.Session.Change
