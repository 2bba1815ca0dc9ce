import Scriptorium.Text.CategoryTable

/-!
# Named classes of characters

Looks up a general category, a script or a letter property by name.  Case, blanks, hyphens and
underscores in a name do not count.
-/

namespace Scriptorium.Text

/-- A name without case and separators. -/
def looseName (s : String) : String :=
  String.ofList ((s.toList.filter fun c => c != ' ' && c != '_' && c != '-').map fun c =>
    if 'A' ≤ c ∧ c ≤ 'Z' then Char.ofNat (c.toNat + 32) else c)

/-- Long names of the general categories. -/
def categoryNames : List (String × String) := [
  ("letter", "l"), ("uppercaseletter", "lu"), ("lowercaseletter", "ll"), ("titlecaseletter", "lt"),
  ("modifierletter", "lm"), ("otherletter", "lo"), ("casedletter", "lc"), ("mark", "m"),
  ("combiningmark", "m"), ("nonspacingmark", "mn"), ("spacingmark", "mc"), ("enclosingmark", "me"),
  ("number", "n"), ("decimalnumber", "nd"), ("digit", "nd"), ("letternumber", "nl"),
  ("othernumber", "no"), ("punctuation", "p"), ("punct", "p"), ("connectorpunctuation", "pc"),
  ("dashpunctuation", "pd"), ("openpunctuation", "ps"), ("closepunctuation", "pe"),
  ("initialpunctuation", "pi"), ("finalpunctuation", "pf"), ("otherpunctuation", "po"),
  ("symbol", "s"), ("mathsymbol", "sm"), ("currencysymbol", "sc"), ("modifiersymbol", "sk"),
  ("othersymbol", "so"), ("separator", "z"), ("spaceseparator", "zs"), ("lineseparator", "zl"),
  ("paragraphseparator", "zp"), ("other", "c"), ("control", "cc"), ("cntrl", "cc"),
  ("format", "cf"), ("privateuse", "co"), ("unassigned", "cn")]

/-- The ranges of a general category, or of a group of them, by its short name. -/
def categoryRanges? (short : String) : Option (List CodeRange) :=
  if short = "lc" then
    some ((["lu", "ll", "lt"].filterMap fun n => (categoryTable.lookup n).map CodeRange.ofText).flatten)
  else
    match categoryTable.lookup short with
    | some t => some (CodeRange.ofText t)
    | none =>
      if short.length = 1 then
        let group := categoryTable.filter fun (n, _) => n.toList.take 1 == short.toList
        if group.isEmpty then none else some (group.map fun (_, t) => CodeRange.ofText t).flatten
      else none

/-- The ranges of a class named without its kind. -/
def classRanges? (name : String) : Option (List CodeRange) :=
  let n := looseName name
  if n = "any" then some [⟨0, 0x10FFFF⟩]
  else if n = "ascii" then some [⟨0, 0x7F⟩]
  else if n = "whitespace" || n = "space" then
    some (CodeRange.ofText "9-D 20 85 A0 1680 2000-200A 2028-2029 202F 205F 3000")
  else
    match letterTable.lookup (if n = "alpha" then "alphabetic" else if n = "lower" then "lowercase"
        else if n = "upper" then "uppercase" else n) with
    | some t => some (CodeRange.ofText t)
    | none =>
      match categoryRanges? ((categoryNames.lookup n).getD n) with
      | some rs => some rs
      | none => (scriptTable.lookup n).map CodeRange.ofText

/-- The ranges of a class named with its kind, such as a script. -/
def keyedRanges? (kind name : String) : Option (List CodeRange) :=
  let n := looseName name
  match looseName kind with
  | "gc" | "generalcategory" => categoryRanges? ((categoryNames.lookup n).getD n)
  | "sc" | "script" | "scx" | "scriptextensions" => (scriptTable.lookup n).map CodeRange.ofText
  | _ => none

end Scriptorium.Text
