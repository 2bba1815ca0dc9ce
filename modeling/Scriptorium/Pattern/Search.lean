import Scriptorium.Pattern.Basic

/-!
# Searching with patterns

`ends` computes all places where a pattern that starts at a place can end, each once.  A repetition
adds one round at a time to the places found so far; since a round that makes progress consumes a
character, as many rounds as there are characters left find them all.
-/

namespace Scriptorium.Pattern

/-- Adds the places that are not among those seen, each once. -/
def addNew (seen : List Place) : List Place → List Place
  | [] => []
  | p :: r =>
    if seen.any (·.pos == p.pos) then addNew seen r else p :: addNew (p :: seen) r

/-- The places reached from `frontier` in at most so many rounds, and those seen before. -/
def closure (step : Place → List Place) : Nat → List Place → List Place → List Place
  | 0, _, seen => seen
  | n + 1, frontier, seen =>
    match addNew seen (frontier.flatMap step) with
    | [] => seen
    | new => closure step n new (seen ++ new)

/-- The places reached in exactly so many rounds. -/
def rounds (step : Place → List Place) : Nat → List Place → List Place
  | 0, ps => ps
  | n + 1, ps => rounds step n (addNew [] (ps.flatMap step))

/-- All places where the pattern can end when it starts at a place. -/
def ends : Pattern → Place → List Place
  | .empty, p => [p]
  | .chars set, p => match p.after with
    | c :: r => if set.mem c then [⟨p.pos + 1, c :: p.before, r⟩] else []
    | [] => []
  | .look l, p => if l.holds p then [p] else []
  | .seq a b, p => addNew [] ((ends a p).flatMap (ends b))
  | .alt a b, p => addNew [] (ends a p ++ ends b p)
  | .repeated a least most, p =>
    let start := rounds (ends a) least [p]
    let extra := match most with
      | none => p.after.length
      | some m => min (m - least) p.after.length
    closure (ends a) extra start start

/-- Whether the pattern spans something from this place or a later one. -/
def occursFrom (pat : Pattern) (pos : Nat) (before : List Char) : List Char → Bool
  | [] => !(pat.ends ⟨pos, before, []⟩).isEmpty
  | c :: r =>
    !(pat.ends ⟨pos, before, c :: r⟩).isEmpty || occursFrom pat (pos + 1) (c :: before) r

def occursIn (pat : Pattern) (s : String) : Bool := occursFrom pat 0 [] s.toList

end Scriptorium.Pattern
