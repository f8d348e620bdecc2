import Patchbay.Json.Reader

/-!
Reading typed values out of JSON.

A record is read from an object, where members with unknown names do not matter and a known name
stands once, or from an array of its fields in order, whose last ones may be missing.
-/

namespace Patchbay.Json

def asBool? : Json → Option Bool
  | bool b => some b
  | _ => none

def asInt? : Json → Option Int
  | number literal => intOfLiteral? literal
  | _ => none

def asString? : Json → Option String
  | text t => t.string?
  | _ => none

def asList? {α : Type} (f : Json → Option α) : Json → Option (List α)
  | array xs => xs.mapM f
  | _ => none

def asInt32? (j : Json) : Option Int :=
  j.asInt?.bind fun z => if -2147483648 ≤ z ∧ z ≤ 2147483647 then some z else none

def asNat64? (j : Json) : Option Nat :=
  j.asInt?.bind fun z => if 0 ≤ z ∧ z < 18446744073709551616 then some z.toNat else none

/-- One of several names, as a string or as an object that maps the name to null. -/
def asName? : Json → Option String
  | text t => t.string?
  | object [(k, null)] => k.string?
  | _ => none

def select (names : List String) : List (Text × Json) → Option (List (Option Json))
  | [] => some (names.map fun _ => none)
  | (k, v) :: ms => do
    let name ← k.string?
    let fields ← select names ms
    match names.findIdx? (· == name) with
    | none => return fields
    | some i =>
      match fields[i]? with
      | some none => return fields.set i (some v)
      | _ => none

/-- The fields of a record in the order of their names, each one that is missing as none. -/
def fields? (names : List String) : Json → Option (List (Option Json))
  | object ms => select names ms
  | array xs =>
    if xs.length ≤ names.length then
      some (xs.map some ++ List.replicate (names.length - xs.length) none)
    else none
  | _ => none

def required {α : Type} (f : Json → Option α) (field : Option Json) : Option α := field.bind f

def optional {α : Type} (f : Json → Option α) (value : α) : Option Json → Option α
  | none => some value
  | some j => f j

end Patchbay.Json
