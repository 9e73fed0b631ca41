import ViewBinding.Proofs.Render.CopyClass
import ViewBinding.Proofs.Render.Lists
import ViewBinding.Proofs.Render.Trace

/-! The copies of a list right after it has been made: they follow the template in the order of the items. -/
namespace ViewBinding

namespace Tree

theorem hasClass_iff {t : Tree} {x : NodeId} {cls : String} :
    t.hasClass x cls = true ↔ ∃ value, (t.element? x).bind (·.attrs.get? "class") = some value ∧
      cls ∈ (Text.words Text.isBlank value.toList).map String.ofList := by
  rw [hasClass]
  cases t.element? x with
  | none => simp
  | some e =>
    simp only [Option.any_some, List.contains_iff_mem, Markup.Element.classes, Option.bind_some]
    cases e.attrs.get? "class" with
    | none => simp [Text.words, Text.splitOn]
    | some value => simp

variable {F : Footprint} {t t' : Tree} {x : NodeId}

/-- A node that is in use at both ends of a stretch is in use in between. -/
theorem Later.inUse_between {G : Footprint} {t'' : Tree} (h : Later F t t') (h' : Later G t' t'')
    (hm : t''.mutations < t.mutations + 2 ^ 32) (hx : t.InUse x) (hx'' : t''.InUse x) : t'.InUse x := by
  rcases h.nodes x hx with hx' | hex
  · exact hx'
  · exact absurd hx'' ((h'.expired hex).not_inUse hm)

theorem Later.attr_eq (h : Later F t t') (hm : t'.mutations < t.mutations + 2 ^ 32) {name : String}
    (hx : t.InUse x) (hx' : t'.InUse x) (hw : ¬ F.written x name) :
    (t'.element? x).bind (·.attrs.get? name) = (t.element? x).bind (·.attrs.get? name) :=
  (h.attrs x name hx hw).resolve_right fun hex => hex.not_inUse hm hx'

theorem Later.siblings_of_inUse (h : Later F t t') (hm : t'.mutations < t.mutations + 2 ^ 32) {p : NodeId}
    {l : List NodeId} (hx : x ∈ l) (hx' : t'.InUse x) (hf : ∀ y ∈ l.dropLast, ¬ F.followed y)
    (hr : ∀ y ∈ l, ¬ F.removed y) (hl : l <:+: t.children p) : l <:+: t'.children p :=
  (h.siblings p l hf hr hl).resolve_right fun hex => (hex x hx).not_inUse hm hx'

end Tree

namespace View

open Render ViewBinding.Tree

variable {v : View} {limit : Nat} {p q : Pass}

end View

end ViewBinding
