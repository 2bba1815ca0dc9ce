import Scriptorium.Yaml.Node
import Scriptorium.Number.Literal
import Scriptorium.Text.CodeRange

/-!
# Values of YAML nodes

A plain scalar may be read as nothing or as a number; a text may be any scalar.  A scalar that is
plain and empty is also an empty list and an empty mapping.  Records are read from mappings: a
field given twice is an error.
-/

namespace Scriptorium.Yaml

/-! ## Plain texts -/

def isNull (s : String) : Bool := s ∈ ["null", "Null", "NULL", "~"]

/-- The number of a nonempty list of digits in a base of at most sixteen. -/
def digitsIn? (base : Nat) (cs : List Char) : Option Nat :=
  if cs.isEmpty then none
  else cs.foldlM (fun acc c => do
    let d ← Text.hexValue c
    if d < base then some (acc * base + d) else none) 0

/-- Whether a list begins with a sign. -/
def startsSigned (cs : List Char) : Bool := cs.head? = some '+' || cs.head? = some '-'

/-- Digits after a zero are no number. -/
def zeroLed (cs : List Char) : Bool :=
  let ds := if startsSigned cs then cs.drop 1 else cs
  1 < ds.length && ds.head? == some '0' && ds.all Char.isDigit

/-- The base that two characters announce, and the rest. -/
def based : List Char → Option (Nat × List Char)
  | '0' :: 'x' :: r => some (16, r)
  | '0' :: 'o' :: r => some (8, r)
  | '0' :: 'b' :: r => some (2, r)
  | _ => none

/-- A natural number: decimal, or in the base that its beginning announces. -/
def naturalOf? (s : String) : Option Nat :=
  let cs := s.toList
  let body := if cs.head? = some '+' then cs.drop 1 else cs
  match based body with
  | some (base, r) => digitsIn? base r
  | none => if startsSigned body || zeroLed cs then none else digitsIn? 10 body

/-- The size of a number below zero. -/
def negativeOf? (s : String) : Option Nat :=
  match s.toList with
  | '-' :: body =>
    match based body with
    | some (base, r) => digitsIn? base r
    | none => if zeroLed ('-' :: body) then none else digitsIn? 10 body
  | _ => none

/-- The number of an exponent after its mark: a sign and digits. -/
def exponentOf? (cs : List Char) : Option Int :=
  match cs with
  | '-' :: r => (digitsIn? 10 r).map fun n => -(n : Int)
  | '+' :: r => (digitsIn? 10 r).map fun n => (n : Int)
  | r => (digitsIn? 10 r).map fun n => (n : Int)

/-- The pattern of a decimal number without sign. -/
def decimalOf? (cs : List Char) : Option Nat := do
  let whole := cs.takeWhile Char.isDigit
  let r := cs.drop whole.length
  let (fraction, r) := match r with
    | '.' :: r => (r.takeWhile Char.isDigit, r.dropWhile Char.isDigit)
    | r => ([], r)
  let digits ← digitsIn? 10 (whole ++ fraction)
  let exponent ← match r with
    | [] => some 0
    | c :: r => if c = 'e' ∨ c = 'E' then exponentOf? r else none
  some (Number.nearest Number.double digits (exponent - fraction.length))

/-- A number of 64 bits: a decimal that is not too large, an infinity or the undefined number. -/
def realOf? (s : String) : Option (Number.Binary Number.double) :=
  let body := if s.toList.head? = some '+' then String.ofList (s.toList.drop 1) else s
  let plus := s.toList.head? = some '+'
  if plus && startsSigned body.toList then none
  else if body ∈ [".inf", ".Inf", ".INF"] then some ⟨false, Number.double.infinite⟩
  else if s ∈ ["-.inf", "-.Inf", "-.INF"] then some ⟨true, Number.double.infinite⟩
  else if s ∈ [".nan", ".NaN", ".NAN"] then
    some ⟨false, Number.double.infinite + Nat.pow 2 (Number.double.precision - 2)⟩
  else
    let negative := body.toList.head? = some '-'
    match decimalOf? (if negative then body.toList.drop 1 else body.toList) with
    | some p => if p < Number.double.infinite then some ⟨negative, p⟩ else none
    | none => none

/-! ## Nodes -/

namespace Scalar

/-- The text of a scalar that may be read as a number: it is plain, or a literal block that is
tagged as one. -/
def numeral? (s : Scalar) (kind : String) : Option String :=
  match s.form, s.tag with
  | .plain, _ => some s.text
  | .literal, some t => if t = "tag:yaml.org,2002:" ++ kind then some s.text else none
  | _, _ => none

end Scalar

namespace Node

def asText? : Node → Option String
  | .scalar s => some s.text
  | _ => none

def asNat? (bound : Nat) : Node → Option Nat
  | .scalar s => do
    let n ← naturalOf? (← s.numeral? "int")
    if n < bound then some n else none
  | _ => none

/-- A number of 32 bits, the nearest to the one that is written with 64. -/
def asSingle? : Node → Option (Number.Binary Number.single)
  | .scalar s => do return (← realOf? (← s.numeral? "float")).convert Number.single
  | _ => none

/-- Whether a node has neither text nor parts. -/
def isEmpty : Node → Bool
  | .scalar s => s.form == .plain && s.text == ""
  | _ => false

def items? : Node → Option (List Node)
  | .sequence l => some l
  | n => if n.isEmpty then some [] else none

def asList? {α : Type} (read : Node → Option α) (n : Node) : Option (List α) :=
  n.items?.bind (·.mapM read)

def entries? : Node → Option (List (Node × Node))
  | .mapping l => some l
  | n => if n.isEmpty then some [] else none

/-- A value that may be missing: nothing is a plain scalar that is empty or means so. -/
def asOption? {α : Type} (read : Node → Option α) : Node → Option (Option α)
  | .scalar s =>
    if s.form ≠ .plain then (read (.scalar s)).map some
    else match s.tag with
      | some t =>
        if t = "tag:yaml.org,2002:null" then (if isNull s.text then some none else none)
        else (read (.scalar s)).map some
      | none =>
        if s.text = "" ∨ isNull s.text then some none else (read (.scalar s)).map some
  | n => (read n).map some

/-- A table from texts to values, as a list of its entries. -/
def asTable? {α : Type} (read : Node → Option α) (n : Node) : Option (List (String × α)) :=
  n.entries?.bind (·.mapM fun (e : Node × Node) => do return (← e.1.asText?, ← read e.2))

/-- The fields of a record; `open_` allows fields that it does not know. -/
structure Fields where
  known : List String
  open_ : Bool
  given : List (String × Node) := []

namespace Fields

/-- Takes in one entry. -/
def add (f : Fields) (e : Node × Node) : Option Fields := do
  let name ← e.1.asText?
  if name ∈ f.known then
    if (f.given.lookup name).isSome then none
    else some { f with given := (name, e.2) :: f.given }
  else if f.open_ then some f
  else none

/-- A field that must be there. -/
def required {α : Type} (f : Fields) (name : String) (read : Node → Option α) : Option α :=
  (f.given.lookup name).bind read

/-- A field with a default. -/
def withDefault {α : Type} (f : Fields) (name : String) (default : α) (read : Node → Option α) :
    Option α :=
  match f.given.lookup name with
  | some n => read n
  | none => some default

/-- A field that may be missing or say nothing. -/
def optional {α : Type} (f : Fields) (name : String) (read : Node → Option α) :
    Option (Option α) :=
  f.withDefault name none (asOption? read)

end Fields

/-- The fields of a record that has the known ones and perhaps others. -/
def openFields? (known : List String) (n : Node) : Option Fields :=
  n.entries?.bind (·.foldlM Fields.add { known := known, open_ := true })

/-- The fields of a record that has only the known ones. -/
def closedFields? (known : List String) (n : Node) : Option Fields :=
  n.entries?.bind (·.foldlM Fields.add { known := known, open_ := false })

end Node

end Scriptorium.Yaml
