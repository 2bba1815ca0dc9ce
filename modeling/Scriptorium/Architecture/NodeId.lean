import Scriptorium.Architecture.Tag

/-!
# Identifiers of diagram nodes

Every name gets an identifier of letters, digits and underscores.  Different names get different
identifiers, none of which is the tag of a layer or a word that the diagram language reserves.
-/

namespace Scriptorium.Architecture

/-- The identifiers given so far, by name. -/
structure NodeIds where
  given : List (String × String) := []
  deriving Repr, DecidableEq, Inhabited

namespace NodeIds

/-- Words of the diagram language that no identifier may be. -/
def reserved : List String := ["end", "graph", "subgraph", "style", "class"]

/-- The identifiers that are in use: those of the layers and those given. -/
def taken (ids : NodeIds) : List String := Layer.all.map Layer.tag ++ ids.given.map (·.2)

/-- The identifier that a name would like to have. -/
def wish (name : String) : String :=
  let plain := name.toList.map fun c => if Text.isAscii c && c.isAlphanum then c else '_'
  let plain := match plain with
    | [] => ['n', '_']
    | c :: r => if c.isDigit then 'n' :: '_' :: c :: r else c :: r
  let s := String.ofList plain
  if s ∈ reserved then s ++ "_" else s

/-- The first of `base_n`, `base_(n+1)`, … that is not in use, among `fuel` of them. -/
def freeFrom (used : List String) (base : String) : Nat → Nat → String
  | 0, n => base ++ "_" ++ toString n
  | fuel + 1, n =>
    let id := base ++ "_" ++ toString n
    if id ∈ used then freeFrom used base fuel (n + 1) else id

/-- The identifier of a name that has none yet. -/
def fresh (ids : NodeIds) (name : String) : String :=
  let base := wish name
  if base ∈ ids.taken then freeFrom ids.taken base ids.taken.length 2 else base

def get (ids : NodeIds) (name : String) : NodeIds × String :=
  match ids.given.lookup name with
  | some id => (ids, id)
  | none =>
    let id := ids.fresh name
    (⟨ids.given ++ [(name, id)]⟩, id)

end NodeIds

end Scriptorium.Architecture
