import ViewBinding.Value.Conversion

/-!
The three equalities of values: strict, loose, and equality of contents.
-/
namespace ViewBinding

/-- Equality without conversion. Arrays and objects are equal to themselves alone. -/
def Value.strictEquals : Value → Value → Bool
  | .undefined, .undefined => true
  | .null, .null => true
  | .bool a, .bool b => a == b
  | .number a, .number b => a == b
  | .string a, .string b => a == b
  | .array a, .array b => a == b
  | .object a, .object b => a == b
  | _, _ => false

namespace Heap

/-- A boolean counts as one or zero. -/
def unbool : Value → Value
  | .bool b => .number (if b then 1 else 0)
  | v => v

/-- Equality of values that are no booleans, a number and a text being compared as numbers. -/
def equalsPrimitive (h : Heap) (a b : Value) : Bool :=
  match a, b with
  | .number _, .string _ | .string _, .number _ => h.number a == h.number b
  | _, _ => a.strictEquals b

/-- Equality with conversion. -/
def looseEquals (h : Heap) (a b : Value) : Bool :=
  if a.isNullish || b.isNullish then a.isNullish && b.isNullish
  else
    let a := unbool a
    let b := unbool b
    match a, b with
    | .array _, .string _ | .array _, .number _ | .object _, .string _ | .object _, .number _ =>
      h.equalsPrimitive (.string (h.string a)) b
    | .string _, .array _ | .number _, .array _ | .string _, .object _ | .number _, .object _ =>
      h.equalsPrimitive a (.string (h.string b))
    | _, _ => h.equalsPrimitive a b

def sameWithin (h : Heap) : Nat → Value → Value → Bool
  | fuel, .array a, .array b =>
    a == b ||
      match fuel with
      | 0 => false
      | fuel + 1 =>
        let as := (h.items a).toList
        let bs := (h.items b).toList
        as.length == bs.length && (as.zip bs).all fun (x, y) => h.sameWithin fuel x y
  | fuel, .object a, .object b =>
    a == b ||
      match fuel with
      | 0 => false
      | fuel + 1 =>
        (h.fields a).size == (h.fields b).size &&
          (h.fields a).entries.all fun (key, x) =>
            match (h.fields b).get? key with
            | some y => h.sameWithin fuel x y
            | none => false
  | _, a, b => a.strictEquals b

/-- Equality of contents; the order of an object's entries does not matter. -/
def same (h : Heap) (a b : Value) : Bool := h.sameWithin h.depth a b

end Heap

end ViewBinding
