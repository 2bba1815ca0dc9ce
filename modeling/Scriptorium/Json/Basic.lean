import Scriptorium.Number.Shortest

/-!
# JSON values

A number is a natural number, a negative integer or a number of 64 bits.  The members of an object
are kept in the order of the text, repeated keys included; `canonical` lets the last value of a key
take the place of the first.
-/

namespace Scriptorium

/-- A number as JSON texts write it. -/
inductive JsonNumber where
  | natural (n : Nat)
  | negative (n : Nat)
  | real (x : Number.Binary Number.double)
  deriving Repr, DecidableEq

/-- A JSON value. -/
inductive Json where
  | null
  | bool (b : Bool)
  | num (n : JsonNumber)
  | str (s : String)
  | arr (items : List Json)
  | obj (members : List (String × Json))
  deriving Repr, Inhabited

namespace Json

def nat (n : Nat) : Json := .num (.natural n)

/-- An optional value, `null` when there is none. -/
def orNull {α : Type} (f : α → Json) : Option α → Json
  | none => .null
  | some a => f a

def strings (l : List String) : Json := .arr (l.map .str)

/-- Sets a key: a new key goes to the end, a known one keeps its place. -/
def setKey {α : Type} (k : String) (v : α) : List (String × α) → List (String × α)
  | [] => [(k, v)]
  | (k', v') :: r => if k' = k then (k, v) :: r else (k', v') :: setKey k v r

/-- The keys in the order of their first occurrence, each with its last value. -/
def lastValues {α : Type} (ms : List (String × α)) : List (String × α) :=
  ms.foldl (fun acc (k, v) => setKey k v acc) []

mutual
/-- The value with the repeated keys of every object merged. -/
def canonical : Json → Json
  | .arr l => .arr (canonicalItems l)
  | .obj ms => .obj (lastValues (canonicalMembers ms))
  | v => v

def canonicalItems : List Json → List Json
  | [] => []
  | v :: r => canonical v :: canonicalItems r

def canonicalMembers : List (String × Json) → List (String × Json)
  | [] => []
  | (k, v) :: r => (k, canonical v) :: canonicalMembers r
end

end Json

end Scriptorium
