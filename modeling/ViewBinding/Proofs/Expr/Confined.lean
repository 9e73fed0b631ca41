import ViewBinding.Proofs.Expr.AssignmentFree
import ViewBinding.Proofs.Value.Reach

/-! Evaluation is confined to what its scope leads to. Whatever an expression does and however it ends, it writes to no
array and no object that cannot be reached from the scope, and it hands out none. -/
namespace ViewBinding

open View

namespace Eval

variable {α β : Type} {h h₁ : Heap} {roots : List Value}

/-- An evaluation in a confined heap leaves a confined heap, and its result is as described in it. -/
def Confined (h : Heap) (roots : List Value) (h₁ : Heap) (x : Eval α) (result : Heap → α → Prop) : Prop :=
  h.Confined roots h₁ → h.Confined roots (x.runIn h₁).2 ∧ h₁.Grown (x.runIn h₁).2 ∧
    ∀ a, (x.runIn h₁).1 = .ok a → result (x.runIn h₁).2 a

/-- Whether all of some values could be reached from the roots or are new. -/
abbrev AllWithin (h : Heap) (roots : List Value) (h₁ : Heap) (vs : List Value) : Prop :=
  ∀ v ∈ vs, h.Within roots h₁ v

variable {result : Heap → α → Prop} {after : Heap → β → Prop}

theorem confined_pure {a : α} (ha : result h₁ a) : Confined h roots h₁ (pure a) result :=
  fun hc => ⟨hc, .refl h₁, fun _ he => Except.ok.inj he ▸ ha⟩

theorem confined_throw (e : EvalError) : Confined h roots h₁ (throw e : Eval α) result :=
  fun hc => ⟨hc, .refl h₁, fun _ he => by cases he⟩

theorem confined_ofExcept {x : Except EvalError α} (hx : ∀ a, x = .ok a → result h₁ a) :
    Confined h roots h₁ (liftM x : Eval α) result := by
  intro hc
  rw [runIn_ofExcept]
  exact ⟨hc, .refl h₁, hx⟩

theorem confined_newArray {items : List Value} (hitems : AllWithin h roots h₁ items) :
    Confined h roots h₁ (newArray items) (h.Within roots) := by
  intro hc
  obtain ⟨hconfined, hnew⟩ := hc.newArray hitems
  exact ⟨hconfined, (Heap.Extends.newArray h₁ items).grown, fun _ he => Except.ok.inj he ▸ hnew⟩

theorem confined_newObject {entries : List (String × Value)} (hentries : AllWithin h roots h₁ (entries.map (·.2))) :
    Confined h roots h₁ (newObject entries) (h.Within roots) := by
  intro hc
  obtain ⟨hconfined, hnew⟩ := hc.newObject fun entry hentry => hentries _ (List.mem_map_of_mem hentry)
  exact ⟨hconfined, (Heap.Extends.newObject h₁ entries).grown, fun _ he => Except.ok.inj he ▸ hnew⟩

theorem confined_set {target value : Value} {key : Heap → String} (htarget : h.Within roots h₁ target)
    (hvalue : h.Within roots h₁ value) :
    Confined h roots h₁ (update fun h => h.set target (key h) value) fun _ _ => True := by
  intro hc
  cases hset : h₁.set target (key h₁) value with
  | error e =>
    rw [runIn_update_error hset]
    exact ⟨hc, .refl h₁, fun _ _ => trivial⟩
  | ok h₂ =>
    rw [runIn_update_ok hset]
    exact ⟨hc.set htarget hvalue hset, Heap.grown_of_set hset, fun _ _ => trivial⟩

theorem confined_bind {x : Eval α} {f : α → Eval β} (hx : Confined h roots h₁ x result)
    (hf : ∀ a h₂, h₁.Grown h₂ → result h₂ a → Confined h roots h₂ (f a) after) :
    Confined h roots h₁ (x >>= f) after := by
  intro hc
  obtain ⟨hfirst, hgrown, hresult⟩ := hx hc
  rw [runIn_bind]
  rcases hrun : x.runIn h₁ with ⟨e | a, h₂⟩ <;> rw [hrun] at hfirst hgrown hresult
  · exact ⟨hfirst, hgrown, fun _ he => by cases he⟩
  · obtain ⟨hlast, hmore, hafter⟩ := hf a h₂ hgrown (hresult a rfl) hfirst
    exact ⟨hlast, hgrown.trans hmore, hafter⟩

/-- Reading the heap changes nothing. -/
theorem confined_view {f : Heap → α} {next : α → Eval β} (hnext : Confined h roots h₁ (next (f h₁)) after) :
    Confined h roots h₁ (view f >>= next) after := by
  intro hc
  rw [runIn_bind, runIn_view]
  exact hnext hc

/-- A text, a number, a truth value or nothing. -/
theorem confined_plain {v : Value} (hv : isContainer v = false) : Confined h roots h₁ (pure v) (h.Within roots) :=
  confined_pure (Heap.within_of_not_isContainer hv)

end Eval

namespace Builtin

open Eval

variable {h h₁ : Heap} {roots : List Value} {args : List Value}

theorem within_argument (hargs : AllWithin h roots h₁ args) (i : Nat) : h.Within roots h₁ (argument args i) := by
  unfold argument
  cases hi : args[i]? with
  | none => exact Heap.within_of_not_isContainer rfl
  | some v => exact hargs v (List.mem_of_getElem? hi)

theorem isContainer_of_pureStringMethod? {s method : String} {v : Value}
    (hv : pureStringMethod? h s method args = some v) : isContainer v = false := by
  unfold pureStringMethod? at hv
  dsimp only at hv
  split at hv
  case h_10 => split at hv <;> cases hv <;> rfl
  case h_14 =>
    cases hv
    cases placeAt? s.toList.length (h.number (argument args 0)) with
    | none => rfl
    | some i => cases hi : s.toList[i]? <;> simp [hi, isContainer, Value.ofChar]
  all_goals cases hv <;> rfl

theorem confined_stringMethod (s method : String) (args : List Value) :
    Confined h roots h₁ (stringMethod s method args) (h.Within roots) := by
  unfold stringMethod
  refine confined_view ?_
  cases hfound : pureStringMethod? h₁ s method args with
  | some v => exact confined_plain (isContainer_of_pureStringMethod? hfound)
  | none =>
    dsimp only
    split
    · refine confined_view (confined_ofExcept fun v hv => ?_)
      unfold repeated at hv
      dsimp only at hv
      split at hv <;> cases hv
      exact Heap.within_of_not_isContainer rfl
    · refine confined_view (confined_ofExcept fun v hv => ?_)
      unfold normalized at hv
      split at hv <;> cases hv
      exact Heap.within_of_not_isContainer rfl
    · refine confined_view (confined_newArray fun v hv => ?_)
      obtain ⟨piece, -, rfl⟩ := List.mem_map.1 hv
      exact Heap.within_of_not_isContainer rfl
    · exact confined_throw _

/-- The items of an array that may be handed out may be handed out. -/
theorem within_items (hc : h.Confined roots h₁) {v : Value} (hv : h.Within roots h₁ v) :
    AllWithin h roots h₁ (h₁.values v) :=
  fun w hw => hc.closed v hv w hw

theorem confined_arrayMethod {r : ArrayRef} (hr : h.Within roots h₁ (.array r)) (method : String)
    (hargs : AllWithin h roots h₁ args) : Confined h roots h₁ (arrayMethod r method args) (h.Within roots) := by
  intro hc
  have hitems : AllWithin h roots h₁ (h₁.items r).toList := within_items hc hr
  revert hc
  unfold arrayMethod
  refine confined_view ?_
  dsimp only [id]
  split
  · exact confined_plain rfl
  · split <;> exact confined_plain rfl
  · exact confined_plain rfl
  · refine confined_newArray fun v hv => hitems v ?_
    exact List.mem_of_mem_drop (List.mem_of_mem_take hv)
  · refine confined_pure ?_
    cases hplace : placeAt? _ _ with
    | none => exact Heap.within_of_not_isContainer rfl
    | some i =>
      rw [Option.bind_some]
      cases hi : (Heap.items _ r).toList[i]? with
      | none => exact Heap.within_of_not_isContainer rfl
      | some v => exact hitems v (List.mem_of_getElem? hi)
  · refine fun hc => confined_newArray (fun v hv => ?_) hc
    rcases List.mem_append.1 hv with hv | hv
    · exact hitems v hv
    · obtain ⟨arg, harg, hv⟩ := List.mem_flatMap.1 hv
      cases arg with
      | array r' => exact within_items hc (hargs _ harg) v hv
      | _ =>
        obtain rfl := List.mem_singleton.1 hv
        exact hargs _ harg
  · exact confined_plain rfl
  · exact confined_throw _

theorem confined_numberMethod (x : Float) (method : String) (args : List Value) :
    Confined h roots h₁ (numberMethod x method args) (h.Within roots) := by
  have hradix : ∀ base v, toRadix x base = .ok v → isContainer v = false := by
    intro base v hv
    unfold toRadix at hv
    split at hv <;> cases hv
    rfl
  unfold numberMethod
  split
  · refine confined_view (confined_ofExcept fun v hv => ?_)
    unfold toFixed at hv
    split at hv
    · cases hv
    · split at hv <;> cases hv <;> exact Heap.within_of_not_isContainer rfl
  · split
    · exact confined_ofExcept fun v hv => Heap.within_of_not_isContainer (hradix _ v hv)
    · refine confined_view (confined_ofExcept fun v hv => ?_)
      exact Heap.within_of_not_isContainer (hradix _ v hv)
  · exact confined_throw _

theorem confined_callMethod {receiver : Value} (hreceiver : h.Within roots h₁ receiver) (method : String)
    (hargs : AllWithin h roots h₁ args) : Confined h roots h₁ (callMethod receiver method args) (h.Within roots) := by
  unfold callMethod
  split
  · exact confined_stringMethod _ _ _
  · exact confined_arrayMethod hreceiver _ hargs
  · exact confined_numberMethod _ _ _
  · split
    · exact confined_plain rfl
    · exact confined_throw _
  · exact confined_throw _

theorem confined_callNamespace (name method : String) (hargs : AllWithin h roots h₁ args) :
    Confined h roots h₁ (callNamespace name method args) (h.Within roots) := by
  unfold callNamespace
  refine confined_view ?_
  dsimp only [id]
  split
  · split <;> exact confined_plain rfl
  · refine confined_newArray fun v hv => ?_
    obtain ⟨key, -, rfl⟩ := List.mem_map.1 hv
    exact Heap.within_of_not_isContainer rfl
  · exact fun hc => confined_newArray (within_items hc (within_argument hargs 0)) hc
  · split
    · exact confined_plain rfl
    · exact confined_throw _

theorem confined_callFunction (name : String) (args : List Value) :
    Confined h roots h₁ (callFunction name args) (h.Within roots) := by
  unfold callFunction
  refine confined_view ?_
  split <;> first | exact confined_plain rfl | exact confined_throw _

end Builtin

namespace Expr

open Eval

variable {h h₁ : Heap} {scope : Scope}

theorem within_value {name : String} {v : Value} (hv : scope.value name = .ok v) :
    h.Within scope.values h₁ v := by
  unfold Scope.value at hv
  split at hv
  · next found hget =>
    cases hv
    obtain ⟨front, behind, heq, -⟩ := List.lookup_eq_some_iff.1 hget
    refine fun _ => .inl (.root ?_)
    rw [OrderedMap.values, heq]
    simp
  · split at hv
    · cases hv
      exact Heap.within_of_not_isContainer rfl
    · split at hv
      · cases hv
        exact Heap.within_of_not_isContainer rfl
      · split at hv <;> cases hv

theorem isContainer_get {v : Value} {key : String} (hw : isContainer (h.get v key) = true) :
    h.get v key ∈ h.values v := by
  cases v with
  | object r =>
    rw [Heap.get] at hw ⊢
    cases hget : (h.fields r).get? key with
    | none => simp [hget, isContainer] at hw
    | some w =>
      obtain ⟨front, behind, heq, -⟩ := List.lookup_eq_some_iff.1 hget
      simp [Heap.values, OrderedMap.values, heq]
  | array r =>
    rw [Heap.get] at hw ⊢
    split at hw
    · cases hw
    · next hkey =>
      rw [if_neg hkey]
      cases hi : Number.index? key.toList with
      | none => simp [hi, isContainer] at hw
      | some i =>
        rw [hi, Option.bind_some] at hw
        rw [Option.bind_some]
        cases hget : (h.items r)[i]? with
        | none => simp [hget, isContainer] at hw
        | some w => exact Array.mem_toList_iff.2 (Array.mem_of_getElem? hget)
  | string s =>
    rw [Heap.get] at hw
    split at hw <;> cases hw
  | _ => cases hw

/-- What is read from where one may go may be handed out. -/
theorem confined_readProperty {v : Value} (hv : h.Within scope.values h₁ v) (key : String) :
    Confined h scope.values h₁ (liftM (readProperty h₁ v key)) (h.Within scope.values) := by
  intro hc
  refine confined_ofExcept (fun w hw => ?_) hc
  unfold readProperty at hw
  split at hw
  · cases hw
  · cases hw
    intro hcontainer
    exact hc.closed v hv _ (isContainer_get hcontainer) hcontainer

theorem isContainer_applyUnary (h : Heap) (v : Value) (op : UnaryOp) : isContainer (applyUnary h v op) = false := by
  cases op <;> rfl

theorem isContainer_applyBinary (h : Heap) (a b : Value) (op : BinaryOp) :
    isContainer (applyBinary h a b op) = false := by
  have hcompare : ∀ numeric textual, isContainer (compare h a b numeric textual) = false := by
    intro numeric textual
    unfold compare
    split <;> rfl
  cases op with
  | add =>
    rw [applyBinary, add]
    split <;> rfl
  | lt | gt | le | ge =>
    rw [applyBinary]
    exact hcompare _ _
  | _ => rfl

mutual

/-- Evaluation writes only to where its scope leads or what it has made, and so does whatever it hands out. -/
theorem confined_eval (h : Heap) (scope : Scope) : (expr : Expr) → (h₁ : Heap) →
    Confined h scope.values h₁ (expr.eval scope) (h.Within scope.values)
  | .number _, _ | .string _, _ | .bool _, _ | .null, _ | .undefined, _ => by
    rw [eval]
    exact confined_plain rfl
  | .ident name, h₁ => by
    rw [eval]
    exact confined_ofExcept fun v hv => within_value hv
  | .template segments, h₁ => by
    rw [eval]
    exact confined_bind (confined_evalSegments h scope segments h₁) fun text h₂ _ _ => confined_plain rfl
  | .array items, h₁ => by
    rw [eval]
    exact confined_bind (confined_evalAll h scope items h₁) fun values h₂ _ hvalues => confined_newArray hvalues
  | .object entries, h₁ => by
    rw [eval]
    exact confined_bind (confined_evalEntries h scope entries h₁) fun values h₂ _ hvalues => confined_newObject hvalues
  | .member owner property optional, h₁ => by
    rw [eval]
    refine confined_bind (confined_eval h scope owner h₁) fun v h₂ _ hv => ?_
    split
    · exact confined_plain rfl
    · exact confined_view (confined_readProperty hv property)
  | .index owner key optional, h₁ => by
    rw [eval]
    refine confined_bind (confined_eval h scope owner h₁) fun v h₂ _ hv => ?_
    split
    · exact confined_plain rfl
    · refine confined_bind (confined_eval h scope key h₂) fun k h₃ hgrown _ => ?_
      exact confined_view (confined_readProperty (hv.mono hgrown) _)
  | .call (.member owner property memberOptional) args optional, h₁ => by
    rw [eval]
    split
    · refine confined_bind (confined_evalAll h scope args h₁) fun values h₂ _ hvalues => ?_
      exact Builtin.confined_callNamespace _ _ hvalues
    · refine confined_bind (confined_eval h scope owner h₁) fun receiver h₂ _ hreceiver => ?_
      dsimp only
      split
      · split
        · exact confined_plain rfl
        · exact confined_view (confined_throw _)
      · refine confined_bind (confined_evalAll h scope args h₂) fun values h₃ hgrown hvalues => ?_
        exact Builtin.confined_callMethod (hreceiver.mono hgrown) _ hvalues
  | .call (.ident name) args optional, h₁ => by
    rw [eval]
    split
    · exact confined_throw _
    · refine confined_bind (confined_evalAll h scope args h₁) fun values h₂ _ _ => ?_
      exact Builtin.confined_callFunction _ _
  | .unary op operand, h₁ => by
    rw [eval]
    split
    · exact confined_plain rfl
    · refine confined_bind (confined_eval h scope operand h₁) fun v h₂ _ _ => ?_
      exact confined_view (confined_plain (isContainer_applyUnary _ _ _))
  | .binary op left right, h₁ => by
    rw [eval]
    refine confined_bind (confined_eval h scope left h₁) fun a h₂ _ _ => ?_
    refine confined_bind (confined_eval h scope right h₂) fun b h₃ _ _ => ?_
    exact confined_view (confined_plain (isContainer_applyBinary _ _ _ _))
  | .logical op left right, h₁ => by
    rw [eval]
    refine confined_bind (confined_eval h scope left h₁) fun v h₂ _ hv => ?_
    split
    · exact confined_pure hv
    · exact confined_eval h scope right h₂
  | .conditional test consequent alternate, h₁ => by
    rw [eval]
    refine confined_bind (confined_eval h scope test h₁) fun v h₂ _ _ => ?_
    split
    · exact confined_eval h scope consequent h₂
    · exact confined_eval h scope alternate h₂
  | .assign (.member owner property _) value, h₁ => by
    rw [eval]
    refine confined_bind (confined_eval h scope value h₁) fun v h₂ _ hv => ?_
    refine confined_bind (confined_eval h scope owner h₂) fun target h₃ hgrown htarget => ?_
    refine confined_bind (confined_set htarget (hv.mono hgrown)) fun _ h₄ hmore _ => ?_
    exact confined_pure (hv.mono (hgrown.trans hmore))
  | .assign (.index owner key _) value, h₁ => by
    rw [eval]
    refine confined_bind (confined_eval h scope value h₁) fun v h₂ _ hv => ?_
    refine confined_bind (confined_eval h scope owner h₂) fun target h₃ hgrown htarget => ?_
    refine confined_bind (confined_eval h scope key h₃) fun k h₄ hmore _ => ?_
    have hv' := hv.mono (hgrown.trans hmore)
    refine confined_bind (confined_set (htarget.mono hmore) hv') fun _ h₅ hlast _ => ?_
    exact confined_pure (hv'.mono hlast)
  | .sequence items, h₁ => by
    rw [eval]
    refine confined_bind (confined_evalAll h scope items h₁) fun values h₂ _ hvalues => confined_pure ?_
    rcases List.eq_nil_or_concat values with rfl | ⟨front, last, rfl⟩
    · exact Heap.within_of_not_isContainer rfl
    · simpa using hvalues last (by simp)
  | .call (.number _) _ _, _ | .call (.string _) _ _, _ | .call (.bool _) _ _, _ | .call .null _ _, _
  | .call .undefined _ _, _ | .call (.template _) _ _, _ | .call (.array _) _ _, _ | .call (.object _) _ _, _
  | .call (.index _ _ _) _ _, _ | .call (.call _ _ _) _ _, _ | .call (.unary _ _) _ _, _
  | .call (.binary _ _ _) _ _, _ | .call (.logical _ _ _) _ _, _ | .call (.conditional _ _ _) _ _, _
  | .call (.assign _ _) _ _, _ | .call (.sequence _) _ _, _ => by
    rw [eval]
    · exact confined_throw _
    all_goals simp
  | .assign (.number _) value, h₁ | .assign (.string _) value, h₁ | .assign (.bool _) value, h₁
  | .assign .null value, h₁ | .assign .undefined value, h₁ | .assign (.ident _) value, h₁
  | .assign (.template _) value, h₁ | .assign (.array _) value, h₁ | .assign (.object _) value, h₁
  | .assign (.call _ _ _) value, h₁ | .assign (.unary _ _) value, h₁ | .assign (.binary _ _ _) value, h₁
  | .assign (.logical _ _ _) value, h₁ | .assign (.conditional _ _ _) value, h₁ | .assign (.assign _ _) value, h₁
  | .assign (.sequence _) value, h₁ => by
    rw [eval]
    · exact confined_bind (confined_eval h scope value h₁) fun v h₂ _ _ => confined_throw _
    all_goals simp

theorem confined_evalAll (h : Heap) (scope : Scope) : (items : List Expr) → (h₁ : Heap) →
    Confined h scope.values h₁ (evalAll scope items) (AllWithin h scope.values)
  | [], _ => confined_pure (by simp [AllWithin])
  | item :: rest, h₁ => by
    rw [evalAll]
    refine confined_bind (confined_eval h scope item h₁) fun v h₂ _ hv => ?_
    refine confined_bind (confined_evalAll h scope rest h₂) fun values h₃ hgrown hvalues => ?_
    exact confined_pure (List.forall_mem_cons.2 ⟨hv.mono hgrown, hvalues⟩)

theorem confined_evalEntries (h : Heap) (scope : Scope) : (entries : List (String × Expr)) → (h₁ : Heap) →
    Confined h scope.values h₁ (evalEntries scope entries) fun h₂ es => AllWithin h scope.values h₂ (es.map (·.2))
  | [], _ => confined_pure (by simp [AllWithin])
  | (key, value) :: rest, h₁ => by
    rw [evalEntries]
    refine confined_bind (confined_eval h scope value h₁) fun v h₂ _ hv => ?_
    refine confined_bind (confined_evalEntries h scope rest h₂) fun entries h₃ hgrown hentries => ?_
    exact confined_pure (List.forall_mem_cons.2 ⟨hv.mono hgrown, hentries⟩)

theorem confined_evalSegments (h : Heap) (scope : Scope) : (segments : List TemplateSegment) → (h₁ : Heap) →
    Confined h scope.values h₁ (evalSegments scope segments) fun _ _ => True
  | [], _ => confined_pure trivial
  | .text s :: rest, h₁ => by
    rw [evalSegments]
    exact confined_bind (confined_evalSegments h scope rest h₁) fun text h₂ _ _ => confined_pure trivial
  | .hole expr :: rest, h₁ => by
    rw [evalSegments]
    refine confined_bind (confined_eval h scope expr h₁) fun v h₂ _ _ => confined_view ?_
    exact confined_bind (confined_evalSegments h scope rest h₂) fun text h₃ _ _ => confined_pure trivial

end

/--
Whether it succeeds or fails, evaluation leaves every array and object as it was that cannot be reached from the scope,
and without assignments everything that was there. What can be reached from its result could be reached from the scope
before or has been made by it.
-/
theorem eval_confined (expr : Expr) (scope : Scope) (h : Heap) :
    (∀ v, h.Has v → ¬ h.Reach scope.values v → h.SameAt ((expr.eval scope).runIn h).2 v) ∧
      (expr.assignmentFree = true → ∀ v, h.Has v → h.SameAt ((expr.eval scope).runIn h).2 v) ∧
      ∀ result, ((expr.eval scope).runIn h).1 = .ok result → ∀ w, isContainer w = true →
        ((expr.eval scope).runIn h).2.Reach [result] w →
          h.Reach scope.values w ∨ ¬ h.Has w ∧ ((expr.eval scope).runIn h).2.Has w := by
  obtain ⟨hconfined, -, hresult⟩ := confined_eval h scope expr h (Heap.confined_refl h scope.values)
  refine ⟨hconfined.kept, fun hfree v hv => ?_, fun result hok w hw hreach => ?_⟩
  · exact (extends_eval scope expr hfree h).sameAt hv
  · exact hconfined.within_of_reach (hresult result hok) hreach hw

/-- An empty object that the scope names, and an object that it does not lead to. -/
def twoObjects : Heap := ⟨#[], #[.empty, .ofList [("k", .null)]]⟩

/-- The variable `a` is the first of the two objects. -/
def firstOnly : Scope := .ofList [("a", .object ⟨0⟩)]

/-- `a.k = [a]` -/
def assignItself : Expr := .assign (.member (.ident "a") "k" false) (.array [.ident "a"])

theorem not_reach_second : ¬ twoObjects.Reach firstOnly.values (.object ⟨1⟩) := by
  intro h
  have honly : ∀ v, twoObjects.Reach firstOnly.values v → v = .object ⟨0⟩ := by
    intro v hv
    induction hv with
    | root hv => exact List.mem_singleton.1 hv
    | inside _ hw ih =>
      subst ih
      cases hw
  cases honly _ h

/-- An assignment to the one object leaves the other as it was, and the array that it yields is new. -/
theorem eval_confined_assignItself :
    (twoObjects.Has (.object ⟨1⟩) ∧ ¬ twoObjects.Reach firstOnly.values (.object ⟨1⟩) ∧
      twoObjects.SameAt ((assignItself.eval firstOnly).runIn twoObjects).2 (.object ⟨1⟩)) ∧
    ∃ result, ((assignItself.eval firstOnly).runIn twoObjects).1 = .ok result ∧
      (twoObjects.Reach firstOnly.values result ∨
        ¬ twoObjects.Has result ∧ ((assignItself.eval firstOnly).runIn twoObjects).2.Has result) := by
  have hhas : twoObjects.Has (.object ⟨1⟩) := Nat.one_lt_two
  obtain ⟨hkept, -, hresult⟩ := eval_confined assignItself firstOnly twoObjects
  refine ⟨⟨hhas, not_reach_second, hkept _ hhas not_reach_second⟩, .array ⟨0⟩, rfl, ?_⟩
  exact hresult (.array ⟨0⟩) rfl (.array ⟨0⟩) rfl (.root (by simp))

end Expr

end ViewBinding
