import ViewBinding.Proofs.Render.Leads

/-! Bringing elements up to date writes attributes of these elements and replaces what is in them. -/
namespace ViewBinding.View

open Render ViewBinding.Tree

variable {v : View} {limit : Nat} {F : Footprint} {p : Pass} {scope : Scope} {id : NodeId}

/-- The text that a pipe makes of a value, if there is a pipe. -/
def pipedText (v : View) (h : Heap) (pipe : Option String) (value : Value) : Except Error (Option String) :=
  match pipe with
  | none => .ok none
  | some name => (v.pipes.apply name (h.display value)).map some

theorem exec_piped (v : View) (pipe : Option String) (value : Value) (p : Pass) :
    (v.piped pipe value).exec p = (v.pipedText p.heap pipe value, p) := by
  cases pipe with
  | none => rfl
  | some name =>
    simp only [piped, pipedText, exec_bind, exec_view]
    cases v.pipes.apply name (p.heap.display value) <;> rfl

theorem leads_piped (pipe : Option String) (value : Value) (hp : p.tree.WellFormed) :
    Pass.Leads limit F p ((v.piped pipe value).exec p).2 := by
  rw [exec_piped]
  exact .refl hp

/-- The entry of an attribute writes that attribute only. -/
theorem leads_bindAttribute (hp : p.tree.WellFormed) (b : Binding)
    (hw : ∀ target ∈ b.target, F.written id (Text.asciiLower target)) :
    Pass.Leads limit F p ((v.bindAttribute scope id b).exec p).2 := by
  unfold bindAttribute
  cases htarget : b.target with
  | none => exact .refl hp
  | some target =>
    have hown := hw target htarget
    have hset : ∀ {t t' : Tree} {text : String}, t.WellFormed → t.setAttr id target text = .ok t' →
        Tree.Later F t t' := fun ht h =>
      ((writes_setAttr ht h).mono fun x n hx => by rw [hx.1, hx.2]; exact hown).later ht
    refine leads_bind (leads_evaluateOrBlank b.expression scope hp) fun value q _ hq => ?_
    refine leads_bind (leads_piped b.pipe value hq.wellFormed) fun shown r _ hr => ?_
    cases shown with
    | some text =>
      refine leads_edit hr.wellFormed fun t ht => ?_
      exact hset hr.wellFormed ht
    | none =>
      simp only
      split
      · refine leads_edit hr.wellFormed fun t ht => ?_
        refine ((writes_removeAttr hr.wellFormed ht).mono fun x n hx => ?_).later hr.wellFormed
        rw [hx.1, hx.2]
        exact hown
      · rw [exec_bind, exec_view]
        refine leads_edit hr.wellFormed fun t ht => ?_
        exact hset hr.wellFormed ht

theorem leads_bindAttributes (hp : p.tree.WellFormed)
    (hw : ∀ b ∈ v.entriesAt .attr p.tree id, ∀ target ∈ b.target, F.written id (Text.asciiLower target)) :
    Pass.Leads limit F p ((v.bindAttributes scope id).exec p).2 := by
  unfold bindAttributes
  rw [exec_bind, exec_tree]
  exact leads_forM hp fun b hb q hq => leads_bindAttribute hq.wellFormed b (hw b hb)

theorem leads_bindContentEntry (hp : p.tree.WellFormed) (hf : F.filled id) (b : Binding) :
    Pass.Leads limit F p ((v.bindContentEntry scope id b).exec p).2 := by
  unfold bindContentEntry
  refine leads_bind (leads_evaluateOrBlank b.expression scope hp) fun value q _ hq => ?_
  refine leads_bind (leads_piped b.pipe value hq.wellFormed) fun shown r _ hr => ?_
  rw [exec_bind, exec_view]
  refine leads_edit hr.wellFormed fun t ht => ?_
  exact later_setInnerMarkup hr.wellFormed hf ht

theorem leads_bindContent (hp : p.tree.WellFormed) (hf : F.filled id) :
    Pass.Leads limit F p ((v.bindContent scope id).exec p).2 := by
  unfold bindContent
  rw [exec_bind, exec_tree]
  exact leads_forM hp fun b _ q hq => leads_bindContentEntry hq.wellFormed hf b

theorem leads_bindProperty (hp : p.tree.WellFormed) (b : Binding)
    (hselected : ∀ x, F.written x "selected") (hf : ∀ property ∈ property? b, property.isContent = true → F.filled id)
    (hw : ∀ property ∈ property? b, ∀ name ∈ property.attribute?, F.written id name) :
    Pass.Leads limit F p ((bindProperty scope id b).exec p).2 := by
  unfold bindProperty
  cases hproperty : property? b with
  | none => exact .refl hp
  | some property =>
    refine leads_bind (leads_evaluateOrBlank b.expression scope hp) fun value q _ hq => ?_
    rw [exec_bind, exec_view]
    refine leads_edit hq.wellFormed fun t ht => ?_
    exact later_write property hq.wellFormed hselected (hw property hproperty) (hf property hproperty) ht

theorem leads_bindProperties (hp : p.tree.WellFormed) (hselected : ∀ x, F.written x "selected")
    (hf : F.filled id) (hw : ∀ property : Property, ∀ name ∈ property.attribute?, F.written id name) :
    Pass.Leads limit F p ((v.bindProperties scope id).exec p).2 := by
  unfold bindProperties
  rw [exec_bind, exec_tree]
  exact leads_forM hp fun b _ q hq =>
    leads_bindProperty hq.wellFormed b hselected (fun _ _ _ => hf) fun property _ => hw property

/-- What is done once the attributes are up to date. -/
theorem leads_contents {ids : List NodeId} (hp : p.tree.WellFormed) (hselected : ∀ x, F.written x "selected")
    (hf : ∀ id ∈ ids, F.filled id) (hw : ∀ id ∈ ids, ∀ name, F.written id name) :
    Pass.Leads limit F p ((do
      ids.forM (v.bindContent scope)
      ids.forM (v.bindProperties scope) : Render Unit).exec p).2 := by
  refine leads_bind (leads_forM hp fun id hid r hr => ?_) fun _ r _ hr => ?_
  · exact leads_bindContent hr.wellFormed (hf id hid)
  refine leads_forM hr.wellFormed fun id hid s hs => ?_
  exact leads_bindProperties hs.wellFormed hselected (hf id hid) fun _ name _ => hw id hid name

/-- Bringing elements up to date changes these elements and what is in them. -/
theorem leads_sync {ids : List NodeId} (hp : p.tree.WellFormed) (hselected : ∀ x, F.written x "selected")
    (hf : ∀ id ∈ ids, F.filled id) (hw : ∀ id ∈ ids, ∀ name, F.written id name) :
    Pass.Leads limit F p ((v.sync scope ids).exec p).2 := by
  unfold sync
  refine leads_bind (leads_forM hp fun id hid q hq => ?_) fun _ q _ hq => ?_
  · exact leads_bindAttributes hq.wellFormed fun _ _ target _ => hw id hid _
  exact leads_contents hq.wellFormed hselected hf hw

/-- Where nothing is left out, nothing has to be shown of the elements. -/
theorem leads_sync_all (limit : Nat) (hp : p.tree.WellFormed) (ids : List NodeId) :
    Pass.Leads limit .all p ((v.sync scope ids).exec p).2 :=
  leads_sync hp (fun _ => trivial) (fun _ _ => trivial) fun _ _ _ => trivial

end ViewBinding.View
