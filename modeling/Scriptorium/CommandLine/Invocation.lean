import Scriptorium.CommandLine.Arguments
import Scriptorium.Yaml.Value
import Scriptorium.Settings.Basic

/-!
# Invocations

The commands of the program: a run over a catalog, the settings as they take effect, and the local
verdicts on a catalog.
-/

namespace Scriptorium.CommandLine

/-- What is to be done. -/
inductive Command where
  | run (catalog : String) (graph output : Option String) (maxSteps : Option Nat)
  | config
  | inspect (catalog : String)
  deriving Repr, DecidableEq, Inhabited

/-- A command with the options that every command knows. -/
structure Invocation where
  config : Option String := none
  preset : Option String := none
  command : Command
  deriving Repr, DecidableEq, Inhabited

namespace Invocation

/-- A path is not empty. -/
def isPath (s : String) : Bool := s != ""

/-- The count that an option gives: decimal digits, perhaps after a plus sign. -/
def count? (s : String) : Option Nat :=
  let cs := s.toList
  let ds := if cs.head? = some '+' then cs.drop 1 else cs
  (Yaml.digitsIn? 10 ds).filter (· ≤ Settings.maxCount)

/-- The options that every command knows. -/
def common : List OptionSpec := [
  { name := "config", letter := some 'c', allows := isPath },
  { name := "preset", letter := some 'p' },
  { name := "verbose", letter := some 'v', takesValue := false }]

/-- What may stand before the command. -/
def outerLevel : Level := { options := common, tellsVersion := true }

/-- What a command may be given. -/
def level? : String → Option Level
  | "run" => some { options := common ++ [
      { name := "catalog", allows := isPath },
      { name := "graph", letter := some 'g', allows := isPath },
      { name := "output", letter := some 'o', allows := isPath },
      { name := "max-steps", allows := fun s => (count? s).isSome }] }
  | "config" => some { options := common }
  | "inspect" => some { options := common ++ [{ name := "catalog", allows := isPath }] }
  | _ => none

def commandOf (name : String) (given : Given) : Except Stop Command :=
  match name, given.lookup "catalog" with
  | "config", _ => .ok .config
  | "inspect", some catalog => .ok (.inspect catalog)
  | "run", some catalog =>
    .ok (.run catalog (given.lookup "graph") (given.lookup "output")
      ((given.lookup "max-steps").bind count?))
  | _, _ => .error .usage

def helpOn : List String → Stop
  | [] => .help
  | name :: _ => if (level? name).isSome || name = "help" then .help else .usage

def ofArguments (args : List String) : Except Stop Invocation := do
  let (outer, rest) ← readOptions outerLevel args.length [] args
  match rest with
  | none => .error .usage
  | some (name, args) =>
    if name = "help" then .error (helpOn args)
    else match level? name with
      | none => .error .usage
      | some level =>
        let (inner, rest) ← readOptions level args.length [] args
        match rest with
        | some _ => .error .usage
        | none =>
          let given := inner ++ outer
          return {
            config := given.lookup "config"
            preset := given.lookup "preset"
            command := ← commandOf name given }

def sources (i : Invocation) : List String :=
  i.config.toList ++ match i.command with
    | .run catalog graph _ _ => catalog :: graph.toList
    | .config => []
    | .inspect catalog => [catalog]

end Invocation

end Scriptorium.CommandLine
