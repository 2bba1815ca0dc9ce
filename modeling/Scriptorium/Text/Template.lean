/-!
# Prompt templates

A placeholder is a name in braces.  Substitution is one pass: a value is never read again, and a
brace that does not begin a placeholder of a known variable is copied.
-/

namespace Scriptorium.Text

/-- Named values, looked up by their first occurrence. -/
abbrev Variables := List (String × String)

/-- The characters before the first closing brace and those after it. -/
def toBrace : List Char → Option (List Char × List Char)
  | [] => none
  | '\x7d' :: r => some ([], r)
  | c :: r => (toBrace r).map fun (b, a) => (c :: b, a)

theorem toBrace_length {cs name rest : List Char} (h : toBrace cs = some (name, rest)) :
    rest.length < cs.length := by
  fun_induction toBrace cs generalizing name rest with
  | case1 => simp at h
  | case2 r => simp_all
  | case3 c r _ ih =>
    obtain ⟨p, hp, he⟩ := Option.map_eq_some_iff.1 h
    obtain ⟨b, a⟩ := p
    simp only [Prod.mk.injEq] at he
    have := ih hp
    simp only [List.length_cons, ← he.2]
    omega

/-- The template's characters with every known placeholder replaced. -/
def fill (vars : Variables) : List Char → List Char
  | [] => []
  | c :: r =>
    if c = '\x7b' then
      match _h : toBrace r with
      | some (name, rest) =>
        match vars.lookup (String.ofList name) with
        | some value => value.toList ++ fill vars rest
        | none => c :: fill vars r
      | none => c :: fill vars r
    else c :: fill vars r
  termination_by cs => cs.length
  decreasing_by
    · have := toBrace_length _h; simp only [List.length_cons]; omega
    all_goals simp

/-- The template with every known placeholder replaced. -/
def render (template : String) (vars : Variables) : String :=
  String.ofList (fill vars template.toList)

end Scriptorium.Text
