import ViewBinding.Proofs.Expr.Path
import ViewBinding.Proofs.Expr.Run
import ViewBinding.Proofs.Session.Lists
import ViewBinding.Proofs.Value.Heap

/-! Writing back what a user has changed. A path is read in two ways: as an expression when the page is brought up to
date, and as names between dots when a property is written back. The two agree on dotted paths. -/
namespace ViewBinding

namespace Expr

variable {scope : Scope} {h : Heap} {expr : Expr} {v : Value}

theorem eval_member (hexpr : (expr.eval scope).runIn h = (.ok v, h)) (hv : v.isNullish = false) (name : String) :
    ((Expr.member expr name false).eval scope).runIn h = (.ok (h.get v name), h) := by
  rw [eval, Eval.runIn_bind, hexpr]
  simp [Eval.runIn_bind, readProperty, hv]

/-- Nothing has no properties. -/
theorem eval_member_of_isNullish (hexpr : (expr.eval scope).runIn h = (.ok v, h)) (hv : v.isNullish = true)
    (name : String) : ∃ e, ((Expr.member expr name false).eval scope).runIn h = (.error e, h) := by
  rw [eval, Eval.runIn_bind, hexpr]
  simp [Eval.runIn_bind, readProperty, hv]

end Expr

/-- Where properties lead one after the other, unless one of them is to be read of nothing. -/
def Heap.valueAt? (h : Heap) (start : Value) (names : List String) : Option Value :=
  names.foldlM (fun v name => if v.isNullish then none else some (h.get v name)) start

namespace Expr

variable {scope : Scope} {h : Heap} {expr : Expr} {start : Value}

/-- An error stays an error. -/
theorem runIn_chain_of_error {e : EvalError} (he : (expr.eval scope).runIn h = (.error e, h)) (names : List String) :
    ((chain expr names).eval scope).runIn h = (.error e, h) := by
  induction names generalizing expr with
  | nil => exact he
  | cons name names ih =>
    refine ih ?_
    rw [eval, Eval.runIn_bind, he]

theorem runIn_chain (hexpr : (expr.eval scope).runIn h = (.ok start, h)) (names : List String) :
    ∃ r, ((chain expr names).eval scope).runIn h = (r, h) ∧ r.toOption = h.valueAt? start names := by
  induction names generalizing expr start with
  | nil => exact ⟨_, hexpr, rfl⟩
  | cons name names ih =>
    rw [Heap.valueAt?, List.foldlM_cons]
    cases hv : start.isNullish with
    | false => exact ih (eval_member hexpr hv name)
    | true =>
      obtain ⟨e, he⟩ := eval_member_of_isNullish hexpr hv name
      exact ⟨_, runIn_chain_of_error he names, rfl⟩

end Expr

namespace View

variable {v : View} {h h' : Heap} {start owner value : Value} {names : List String} {last : String}

theorem follow?_cons (h : Heap) (start : Value) (name : String) (names : List String) :
    follow? h start (name :: names) =
      if isContainer (h.get start name) then follow? h (h.get start name) names else none := by
  simp only [follow?, List.foldlM_cons]
  split <;> rfl

theorem not_isNullish_of_isContainer (hv : isContainer value = true) : value.isNullish = false := by
  cases value <;> first | rfl | cases hv

/-- Whether following names reads an entry. -/
def Reads (h : Heap) (start : Value) (names : List String) (owner : Value) (key : String) : Prop :=
  ∃ front behind, names = front ++ key :: behind ∧ follow? h start front = some owner

theorem Reads.cons {name key : String} (hc : isContainer (h.get start name) = true)
    (hr : Reads h (h.get start name) names owner key) : Reads h start (name :: names) owner key := by
  obtain ⟨front, behind, rfl, hf⟩ := hr
  exact ⟨name :: front, behind, rfl, by rw [follow?_cons, if_pos hc, hf]⟩

/-- A write to an entry that is not on the way does not change where names lead. -/
theorem follow?_set {r : ObjectRef} (hset : h.set (.object r) last value = .ok h')
    (hreads : ¬ Reads h start names (.object r) last) : follow? h' start names = follow? h start names := by
  induction names generalizing start with
  | nil => rfl
  | cons name names ih =>
    have hget : h'.get start name = h.get start name := by
      by_cases hs : start = .object r
      · subst hs
        refine Heap.get_set_object_of_ne hset fun he => hreads ⟨[], names, by rw [he]; rfl, rfl⟩
      · exact Heap.get_set_of_ne hset hs name
    rw [follow?_cons, follow?_cons, hget]
    split
    · next hc => exact ih fun hr => hreads (hr.cons hc)
    · rfl

/-- Where names lead is the value of the properties one after the other. -/
theorem eval_chain {scope : Scope} {expr : Expr} (hexpr : (expr.eval scope).runIn h = (.ok start, h))
    (hstart : start.isNullish = false) (hfollow : follow? h start names = some owner) (last : String) :
    ((Expr.chain expr (names ++ [last])).eval scope).runIn h = (.ok (h.get owner last), h) := by
  induction names generalizing expr start with
  | nil =>
    cases hfollow
    exact Expr.eval_member hexpr hstart last
  | cons name names ih =>
    rw [follow?_cons] at hfollow
    split at hfollow
    · next hc =>
      exact ih (Expr.eval_member hexpr hstart name) (not_isNullish_of_isContainer hc) hfollow
    · cases hfollow

/-- The scopes that elements are bound in: outside of lists, and in the lists within lists. -/
inductive InLists (v : View) : Scope → Prop
  | outside : InLists v v.scope
  | inside {parent : Scope} (hparent : InLists v parent) (item : Value) (index : Nat) :
    InLists v (ItemScope.within parent item index).scope

/-- What listeners are bound with. -/
def Binds (v : View) (scope : Option ItemScope) : Prop :=
  ∀ item ∈ scope, ∃ parent value index, v.InLists parent ∧ item = .within parent value index

/-- The variables that the expressions of an element see. -/
def scopeOf (v : View) (scope : Option ItemScope) : Scope := (scope.map (·.scope)).getD v.scope

theorem InLists.get?_vm {scope : Scope} (hs : v.InLists scope) : scope.get? "$vm" = some v.object := by
  induction hs with
  | outside => exact OrderedMap.get?_insert_self ..
  | inside _ item index ih =>
    rw [ItemScope.within, OrderedMap.get?_insert_of_ne _ (by decide), OrderedMap.get?_insert_of_ne _ (by decide), ih]

/-- A path starts at the variable that its first name names. -/
theorem get?_scopeOf {scope : Option ItemScope} (hs : v.Binds scope) {first : String}
    (hfirst : first = "$vm" ∨ first = "$item" ∧ scope.isSome = true) :
    (v.scopeOf scope).get? first = some (v.pathStart first scope) := by
  cases scope with
  | none =>
    obtain rfl := hfirst.resolve_right fun hn => by cases hn.2
    exact OrderedMap.get?_insert_self ..
  | some item =>
    obtain ⟨parent, value, index, hparent, rfl⟩ := hs item rfl
    rcases hfirst with rfl | ⟨rfl, -⟩
    · exact (hparent.inside value index).get?_vm
    · rw [scopeOf, Option.map_some, Option.getD_some, ItemScope.within, OrderedMap.get?_insert_of_ne _ (by decide),
        OrderedMap.get?_insert_self]
      rfl

/-- A write-back follows the names between the first and the last one, and writes what the last one names. -/
theorem writePath?_eq_some {path : String} {scope : Option ItemScope} (hw : v.writePath? h path scope value = some h') :
    ∃ first names last owner, pathParts path = first :: (names ++ [last]) ∧
      follow? h (v.pathStart first scope) names = some owner ∧ h.set owner last value = .ok h' := by
  unfold writePath? at hw
  split at hw
  · next first second rest hparts =>
    simp only at hw
    split at hw
    · cases hw
    · obtain ⟨owner, hfollow, hset⟩ := Option.bind_eq_some_iff.1 hw
      refine ⟨first, (second :: rest).dropLast, (second :: rest).getLastD "", owner, ?_, hfollow, ?_⟩
      · rw [List.getLastD_eq_getLast?, List.getLast?_eq_some_getLast (by simp), Option.getD_some,
          List.dropLast_append_getLast, hparts]
      · revert hset
        cases h.set owner ((second :: rest).getLastD "") value <;> simp [Except.toOption]
  · cases hw

/-- A text that is a dotted path from the object of the view model or from the item of the list. -/
structure IsPath (path : String) (scope : Option ItemScope) (first : String) (names : List String) : Prop where
  parts : pathParts path = first :: names
  names : ∀ name ∈ names, Expr.isName name.toList = true
  first : first = "$vm" ∨ first = "$item" ∧ scope.isSome = true

theorem not_isNullish_of_follow? (hfollow : follow? h start names = some owner) (ho : isContainer owner = true) :
    start.isNullish = false := by
  cases names with
  | nil => exact not_isNullish_of_isContainer (Option.some.inj hfollow ▸ ho)
  | cons name names =>
    rw [follow?_cons] at hfollow
    cases start <;> first | rfl | cases hfollow

/-- No name is the index of an item. -/
theorem index?_of_isName {name : List Char} (hname : Expr.isName name = true) : Number.index? name = none := by
  cases name with
  | nil => cases hname
  | cons c rest =>
    rw [Expr.isName, Bool.and_eq_true] at hname
    have hdigit : Number.digit? 10 c = none := by
      have hc := Expr.not_isDigit_of_isIdentStart hname.1
      simp only [Number.isDigit, Bool.and_eq_false_iff, decide_eq_false_iff_not] at hc
      unfold Number.digit?
      rw [if_neg (by tauto)]
      split
      · simp
      · split
        · simp
        · rfl
    have hplus : c ≠ '+' := fun he => by
      rw [he] at hname
      exact absurd hname.1 (by decide)
    have hdigits : Number.natBelow? 10 Number.indexBound (c :: rest) =
        Number.digitsBelow? 10 Number.indexBound (c :: rest) := by
      unfold Number.natBelow?
      split
      · next he => exact absurd (List.cons.inj he).1 hplus
      · rfl
    rw [Number.index?, hdigits, Number.digitsBelow?, List.foldlM_cons, hdigit]
    rfl

/-- On a dotted path that does not pass the entry it ends at, what has been written is what the path reads. -/
theorem evaluate_of_isPath {path first last : String} {scope : Option ItemScope} (hs : v.Binds scope)
    (hpath : IsPath path scope first (names ++ [last]))
    (hfollow : follow? h (v.pathStart first scope) names = some owner) (hset : h.set owner last value = .ok h')
    (hreads : ¬ Reads h (v.pathStart first scope) names owner last) :
    evaluate path (v.scopeOf scope) h' = (.ok value, h') := by
  have hlast := index?_of_isName (hpath.names last (by simp))
  have hobject : ∃ r, owner = .object r := by
    cases owner with
    | object r => exact ⟨r, rfl⟩
    | array r => simp [Heap.set, hlast] at hset
    | _ => cases hset
  obtain ⟨r, rfl⟩ := hobject
  have hplain : Expr.isName first.toList = true ∧ Expr.unaryOp? (.ident first) = none ∧
      Expr.ofName first = .ident first := by
    rcases hpath.first with rfl | ⟨rfl, -⟩ <;> exact ⟨by decide +kernel, rfl, rfl⟩
  have hread : Expr.parse path = .ok (Expr.chain (.ident first) (names ++ [last])) := by
    rw [← hplain.2.2]
    exact Expr.parse_path hpath.parts (List.forall_mem_cons.2 ⟨hplain.1, hpath.names⟩) hplain.2.1
  have hvalue : ((Expr.ident first).eval (v.scopeOf scope)).runIn h' = (.ok (v.pathStart first scope), h') := by
    rw [Expr.eval, Scope.value, get?_scopeOf hs hpath.first]
    rfl
  have hstartValue := not_isNullish_of_follow? hfollow rfl
  rw [evaluate, hread, evaluateRead]
  rw [eval_chain hvalue hstartValue ((follow?_set hset hreads).trans hfollow) last, Heap.get_set_self hset]
  rfl

/-- A dotted path from a variable reads properties one after the other and changes nothing. -/
theorem evaluate_of_parts {path first : String} {scope : Scope} (hparts : pathParts path = first :: names)
    (hnames : ∀ name ∈ names, Expr.isName name.toList = true) (hfirst : first = "$vm" ∨ first = "$item")
    (hstart : scope.get? first = some start) (h : Heap) :
    (evaluate path scope h).1.toOption = h.valueAt? start names ∧ (evaluate path scope h).2 = h := by
  have hplain : Expr.isName first.toList = true ∧ Expr.unaryOp? (.ident first) = none ∧
      Expr.ofName first = .ident first := by
    rcases hfirst with rfl | rfl <;> exact ⟨by decide +kernel, rfl, rfl⟩
  have hread : Expr.parse path = .ok (Expr.chain (.ident first) names) := by
    rw [← hplain.2.2]
    exact Expr.parse_path hparts (List.forall_mem_cons.2 ⟨hplain.1, hnames⟩) hplain.2.1
  have hvalue : ((Expr.ident first).eval scope).runIn h = (.ok start, h) := by
    rw [Expr.eval, Scope.value, hstart]
    rfl
  obtain ⟨r, hr, hoption⟩ := Expr.runIn_chain hvalue names
  rw [evaluate, hread, evaluateRead, hr]
  refine ⟨?_, rfl⟩
  rw [← hoption]
  cases r <;> rfl

end View

namespace Session

variable {σ : Type} {s s' : Session σ}

/--
A write-back that reports no change changes nothing. One that reports a change has written what it read from the
element to one entry: the last name of the path names it, in the array or the object that the names between the first
and the last one lead to. If the path is a dotted path from `$vm` or the item, and does not itself pass the entry it
ends at, then as an expression it yields from now on what was written.
-/
theorem writeBack_spec {target : NodeId} {p : Property} {path : String} {scope : Option ItemScope}
    {result : Except Error Bool} (h : s.writeBack target p path scope = (result, s'))
    (hs : s.model.view.Binds scope) :
    (result.toOption ≠ some true → s' = s) ∧
      (result.toOption = some true → ∃ value first names last owner,
        p.read s.tree target = .ok value ∧ View.pathParts path = first :: (names ++ [last]) ∧
        View.follow? s.page.heap (s.model.view.pathStart first scope) names = some owner ∧
        s.page.heap.Entered s'.page.heap owner last value ∧
        (View.IsPath path scope first (names ++ [last]) →
          ¬ View.Reads s.page.heap (s.model.view.pathStart first scope) names owner last →
          evaluate path (s'.model.view.scopeOf scope) s'.page.heap = (.ok value, s'.page.heap))) := by
  unfold writeBack at h
  split at h
  · cases h
    exact ⟨fun _ => rfl, fun hn => by cases hn⟩
  · next value hread =>
    split at h
    · next heap hw =>
      cases h
      obtain ⟨first, names, last, owner, hparts, hfollow, hset⟩ := View.writePath?_eq_some hw
      refine ⟨fun hn => absurd rfl hn, fun _ => ⟨value, first, names, last, owner, hread, hparts, hfollow,
        Heap.entered_of_set hset, fun hpath hreads => ?_⟩⟩
      exact View.evaluate_of_isPath hs hpath hfollow hset hreads
    · cases h
      exact ⟨fun _ => rfl, fun hn => by cases hn⟩

/-- A model with a text and a flag. -/
def textAndFlag : Value × Heap := Heap.empty.newObject [("k", .string ""), ("done", .bool true)]

/-- Whether a write-back reports a change after reading some value from the element. -/
def writesBack (s : Session Unit) (target : NodeId) (p : Property) (path : String) (scope : Option ItemScope)
    (read : Value → Bool) : Bool :=
  (s.writeBack target p path scope).1.toOption == some true && (p.read s.tree target).toOption.any read

theorem exists_of_writesBack {s : Session Unit} {target : NodeId} {p : Property} {path : String}
    {scope : Option ItemScope} {read : Value → Bool} (h : writesBack s target p path scope read = true) :
    (s.writeBack target p path scope).1 = .ok true ∧ ∃ value, p.read s.tree target = .ok value ∧ read value = true := by
  simp only [writesBack, Bool.and_eq_true, beq_iff_eq] at h
  obtain ⟨hok, hread⟩ := h
  constructor
  · cases hr : (s.writeBack target p path scope).1 <;> simp_all [Except.toOption]
  · obtain ⟨value, hv, hvalue⟩ := (Option.any_eq_true _ _).1 hread
    refine ⟨value, ?_, hvalue⟩
    cases hr : p.read s.tree target <;> simp_all [Except.toOption]

set_option maxRecDepth 10000 in
/-- A text control in a list whose item is the object of the view model. -/
theorem writeBack_spec_item : ∃ (s s' : Session Unit) (target : NodeId) (scope : Option ItemScope) (value : Value),
    s.Reached ∧ s.model.view.Binds scope ∧ s.writeBack target .value "$item.model.k" scope = (.ok true, s') ∧
      Property.read .value s.tree target = .ok value ∧ value.asString? = some "x" ∧
      evaluate "$item.model.k" (s.model.view.scopeOf scope) s'.page.heap = (.ok value, s'.page.heap) := by
  have h : (ofHtml "<input ft-view-model='vm' value='x'>" textAndFlag).toOption.any (fun s =>
      s.tree.elements.any fun target => writesBack s target .value "$item.model.k"
        (some (.within s.model.view.scope s.model.view.object 0)) fun value => value.asString? == some "x") = true := by
    decide +kernel
  obtain ⟨s, hs, hcheck⟩ := exists_of_toOption_any h
  obtain ⟨target, -, hcheck⟩ := List.any_eq_true.1 hcheck
  obtain ⟨hok, x, hread, hx⟩ := exists_of_writesBack hcheck
  have hbinds : s.model.view.Binds (some (.within s.model.view.scope s.model.view.object 0)) := by
    rintro item ⟨⟩
    exact ⟨_, _, _, .outside, rfl⟩
  obtain ⟨-, hwritten⟩ := writeBack_spec (Prod.ext hok rfl) hbinds
  obtain ⟨value, first, names, last, owner, hvalue, hparts, -, -, heval⟩ := hwritten rfl
  have hpath : View.pathParts "$item.model.k" = "$item" :: (["model"] ++ ["k"]) := by decide +kernel
  obtain ⟨rfl, hnames⟩ := List.cons.inj (hpath.symm.trans hparts)
  obtain ⟨rfl, hlast⟩ := List.append_inj' hnames rfl
  obtain rfl := (List.cons.inj hlast).1
  obtain rfl := Except.ok.inj (hread.symm.trans hvalue)
  refine ⟨s, _, target, _, x, reached_ofHtml hs, hbinds, Prod.ext hok rfl, hread, by simpa using hx, heval ?_ ?_⟩
  · exact ⟨hpath, by decide +kernel, .inr ⟨rfl, rfl⟩⟩
  · rintro ⟨front, behind, heq, -⟩
    have : "k" ∈ ["model"] := heq ▸ by simp
    simp at this

set_option maxRecDepth 10000 in
/--
Where reading and writing back part: a text that is no dotted path may lead to an entry all the same, and is then no
longer what has been written; and a dotted path that passes the entry it ends at ends elsewhere afterwards.
-/
theorem writeBack_not_read :
    (∃ (s s' : Session Unit) (target : NodeId) (value : Value), s.Reached ∧
      (∀ first names, ¬ View.IsPath "!$vm.model.done" none first names) ∧
      s.writeBack target .checked "!$vm.model.done" none = (.ok true, s') ∧
      Property.read .checked s.tree target = .ok value ∧ value.asBool? = some false ∧
      (evaluate "!$vm.model.done" s.model.view.scope s'.page.heap).1.toOption.bind Value.asBool? = some true ∧
      (s.page.heap.get (s.model.model s.page.heap) "done").asBool? = some true ∧
      (s'.page.heap.get (s.model.model s.page.heap) "done").asBool? = some false) ∧
    ∃ (s s' : Session Unit) (target : NodeId) (value : Value), s.Reached ∧
      View.IsPath "$vm.self.self" none "$vm" ["self", "self"] ∧
      s.writeBack target .value "$vm.self.self" none = (.ok true, s') ∧
      Property.read .value s.tree target = .ok value ∧ value.asString? = some "x" ∧
      (evaluate "$vm.self.self" s.model.view.scope s'.page.heap).1.toOption.bind Value.asString? = none := by
  constructor
  · have h : (ofHtml "<input ft-view-model='vm'>" textAndFlag).toOption.any (fun s =>
        s.tree.elements.any fun target =>
          let s' := (s.writeBack target .checked "!$vm.model.done" none).2
          writesBack s target .checked "!$vm.model.done" none (fun value => value.asBool? == some false) &&
            (evaluate "!$vm.model.done" s.model.view.scope s'.page.heap).1.toOption.bind Value.asBool? == some true &&
            (s.page.heap.get (s.model.model s.page.heap) "done").asBool? == some true &&
            (s'.page.heap.get (s.model.model s.page.heap) "done").asBool? == some false) = true := by
      decide +kernel
    obtain ⟨s, hs, hcheck⟩ := exists_of_toOption_any h
    obtain ⟨target, -, hcheck⟩ := List.any_eq_true.1 hcheck
    simp only [Bool.and_eq_true, beq_iff_eq] at hcheck
    obtain ⟨⟨⟨hwrites, heval⟩, hbefore⟩, hafter⟩ := hcheck
    obtain ⟨hok, value, hread, hvalue⟩ := exists_of_writesBack hwrites
    refine ⟨s, _, target, value, reached_ofHtml hs, ?_, Prod.ext hok rfl, hread, by simpa using hvalue, heval, hbefore,
      hafter⟩
    rintro first names ⟨hparts, -, hfirst⟩
    have hpath : View.pathParts "!$vm.model.done" = ["!$vm", "model", "done"] := by decide +kernel
    obtain ⟨rfl, -⟩ := List.cons.inj (hpath.symm.trans hparts)
    rcases hfirst with hfirst | ⟨-, hscope⟩
    · exact absurd hfirst (by decide)
    · cases hscope
  · have h : (ofHtml "<input ft-view-model='vm' value='x'>" textAndFlag).toOption.any (fun s =>
        let s := (s.setProperty "self" s.model.view.object).2
        s.tree.elements.any fun target =>
          let s' := (s.writeBack target .value "$vm.self.self" none).2
          writesBack s target .value "$vm.self.self" none (fun value => value.asString? == some "x") &&
            (evaluate "$vm.self.self" s.model.view.scope s'.page.heap).1.toOption.bind Value.asString? == none) =
        true := by
      decide +kernel
    obtain ⟨s, hs, hcheck⟩ := exists_of_toOption_any h
    obtain ⟨target, -, hcheck⟩ := List.any_eq_true.1 hcheck
    simp only [Bool.and_eq_true, beq_iff_eq] at hcheck
    obtain ⟨hok, value, hread, hvalue⟩ := exists_of_writesBack hcheck.1
    exact ⟨_, _, target, value, (reached_ofHtml hs).steps (Steps.setProperty .refl _ _), ⟨by decide +kernel, by decide +kernel, .inl rfl⟩,
      Prod.ext hok rfl, hread, by simpa using hvalue, hcheck.2⟩

end Session

end ViewBinding
