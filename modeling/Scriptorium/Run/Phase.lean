/-!
# Phases

A run moves through phases along a fixed table and counts its moves.  A move that the table does
not allow is refused first, then a move beyond the cap; a refused move changes nothing.
-/

namespace Scriptorium.Run

/-- What a run is doing. -/
inductive Phase where
  | loading | filtering | rejected | selecting | processing | compiling | finalizing | done
  deriving Repr, DecidableEq, Inhabited

namespace Phase

def all : List Phase :=
  [loading, filtering, rejected, selecting, processing, compiling, finalizing, done]

def name : Phase → String
  | loading => "LOADING"
  | filtering => "FILTERING"
  | rejected => "REJECTED"
  | selecting => "SELECTING"
  | processing => "PROCESSING"
  | compiling => "COMPILING"
  | finalizing => "FINALIZING"
  | done => "DONE"

def ofName? (s : String) : Option Phase := all.find? (·.name = s)

/-- Whether a run ends here. -/
def terminal (p : Phase) : Bool := p == done

/-- The moves that are allowed. -/
def allows : Phase → Phase → Bool
  | loading, filtering | loading, compiling => true
  | filtering, rejected | filtering, selecting => true
  | rejected, loading => true
  | selecting, processing => true
  | processing, loading => true
  | compiling, finalizing => true
  | finalizing, done => true
  | _, _ => false

def successors (p : Phase) : List Phase := all.filter p.allows

end Phase

/-- Why a move is refused. -/
inductive Refusal where
  | notAllowed (source target : Phase)
  | capReached (cap : Nat) (phase : Phase)
  deriving Repr, DecidableEq

def Refusal.message : Refusal → String
  | notAllowed source target =>
    "Invalid phase transition: " ++ source.name ++ " -> " ++ target.name
  | capReached cap phase =>
    "Step limit of " ++ toString cap ++ " transitions exceeded (last phase: " ++ phase.name ++ ")"

/-- The phase, the moves made so far and the most that may be made. -/
structure Machine where
  cap : Nat
  phase : Phase := .loading
  steps : Nat := 0
  deriving Repr, DecidableEq, Inhabited

namespace Machine

/-- Asks for a move: the answer, and the machine after it. -/
def request (m : Machine) (target : Phase) : Except Refusal Unit × Machine :=
  if !m.phase.allows target then (.error (.notAllowed m.phase target), m)
  else if m.cap ≤ m.steps then (.error (.capReached m.cap m.phase), m)
  else (.ok (), { m with phase := target, steps := m.steps + 1 })

/-- The machine that a move leads to, if it is granted. -/
def advance (m : Machine) (target : Phase) : Except Refusal Machine :=
  match m.request target with
  | (.ok (), m) => .ok m
  | (.error r, _) => .error r

end Machine

end Scriptorium.Run
