/-!
# Excerpts

The head of a text, with three dots when something was cut off.
-/

namespace Scriptorium.Text

/-- At most `n` characters of a text, followed by three dots if there are more. -/
def preview (n : Nat) (s : String) : String :=
  let cs := s.toList
  if cs.length ≤ n then s else String.ofList (cs.take n) ++ "..."

end Scriptorium.Text
