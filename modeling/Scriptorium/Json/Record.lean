import Scriptorium.Json.Basic

/-!
# Records as JSON

A record is read from an object or from an array of its fields in order.  In an object, unknown
keys are ignored and a field given twice, also under two of its names, is an error; in an array,
trailing fields may be missing but none may be added.
-/

namespace Scriptorium.Json

/-- What a text says about one field: nothing, nothing because the array ended, or a value. -/
inductive Slot where
  | absent
  | cutOff
  | given (v : Json)

namespace Slot

/-- A field that must be there. -/
def required {α : Type} (read : Json → Option α) : Slot → Option α
  | .given v => read v
  | _ => none

/-- A field with a default. -/
def withDefault {α : Type} (default : α) (read : Json → Option α) : Slot → Option α
  | .given v => read v
  | _ => some default

/-- A field that an object may leave out or set to null. -/
def optional {α : Type} (read : Json → Option α) : Slot → Option (Option α)
  | .given .null => some none
  | .given v => (read v).map some
  | .absent => some none
  | .cutOff => none

/-- A field that an object or an array may leave out. -/
def optionalDefault {α : Type} (read : Json → Option α) : Slot → Option (Option α)
  | .given .null => some none
  | .given v => (read v).map some
  | _ => some none

end Slot

/-- Puts a member into the slot that knows its key; a slot is filled once. -/
def fillSlot (k : String) (v : Json) : List (List String × Slot) → Option (List (List String × Slot))
  | [] => some []
  | (names, s) :: r =>
    if k ∈ names then
      match s with
      | .given _ => none
      | _ => some ((names, .given v) :: r)
    else (fillSlot k v r).map ((names, s) :: ·)

/-- The slots of an array of fields. -/
def slotsOfItems : List (List String) → List Json → Option (List Slot)
  | [], [] => some []
  | [], _ :: _ => none
  | _ :: ns, [] => (slotsOfItems ns []).map (.cutOff :: ·)
  | _ :: ns, v :: r => (slotsOfItems ns r).map (.given v :: ·)

/-- The slots of the fields with the given names, from an object or an array. -/
def slots (fields : List (List String)) : Json → Option (List Slot)
  | .obj ms =>
    let start : List (List String × Slot) := fields.map fun n => (n, .absent)
    (ms.foldlM (fun acc (m : String × Json) => fillSlot m.1 m.2 acc) start).map
      fun (filled : List (List String × Slot)) => filled.map Prod.snd
  | .arr l => slotsOfItems fields l
  | _ => none

def asString? : Json → Option String
  | .str s => some s
  | _ => none

def asBool? : Json → Option Bool
  | .bool b => some b
  | _ => none

/-- A natural number of 64 bits. -/
def asNat? : Json → Option Nat
  | .num (.natural n) => some n
  | _ => none

def asList? {α : Type} (read : Json → Option α) : Json → Option (List α)
  | .arr l => l.mapM read
  | _ => none

/-- The member of an object with a key, the last one if it is repeated. -/
def member? (k : String) : Json → Option Json
  | .obj ms => (ms.reverse.lookup k)
  | _ => none

end Scriptorium.Json
