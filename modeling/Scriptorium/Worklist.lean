import Scriptorium.Catalog
import Scriptorium.Manuscript
import Scriptorium.Architecture.Model

/-!
# Work in progress

What a run knows at any moment: the components still to come, the current one with its verdict and
its sections, the manuscript, the architecture model and the counts.
-/

namespace Scriptorium

/-- Whether a component is documented. -/
inductive Verdict where
  | accept
  | reject
  deriving Repr, DecidableEq, Inhabited

/-- How far a run has come. -/
structure Counts where
  total : Nat := 0
  remaining : Nat := 0
  processed : Nat := 0
  accepted : Nat := 0
  rejected : Nat := 0
  deriving Repr, DecidableEq, Inhabited

/-- The state of a run between two steps. -/
structure Worklist where
  total : Nat
  queue : List Component
  manuscript : Manuscript
  current : Option Component := none
  targets : List String := []
  verdict : Option Verdict := none
  model : Architecture.Model := {}
  processed : Nat := 0
  accepted : Nat := 0
  rejected : Nat := 0
  deriving Repr, DecidableEq, Inhabited

namespace Worklist

/-- All components of a catalog to come, nothing written. -/
def start (k : Catalog) (t : Taxonomy) : Worklist where
  total := k.size
  queue := k.components
  manuscript := .ofTaxonomy t

/-- Forgets the current component and takes the next one, if there is one. -/
def next (w : Worklist) : Worklist :=
  let w := { w with current := none, targets := [], verdict := none }
  match w.queue with
  | [] => w
  | c :: r => { w with queue := r, current := some c, processed := w.processed + 1 }

def judge (w : Worklist) : Verdict → Worklist
  | .accept => { w with verdict := some .accept, accepted := w.accepted + 1 }
  | .reject => { w with verdict := some .reject, rejected := w.rejected + 1 }

def place (w : Worklist) (targets : List String) : Worklist := { w with targets := targets }

def currentName (w : Worklist) : Option String := w.current.map (·.name)

def counts (w : Worklist) : Counts where
  total := w.total
  remaining := w.queue.length
  processed := w.processed
  accepted := w.accepted
  rejected := w.rejected

end Worklist

end Scriptorium
