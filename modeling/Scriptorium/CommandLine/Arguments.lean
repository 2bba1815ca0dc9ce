import Scriptorium.Text.Lines

/-!
# Arguments

A command line names one command and its options.  Some options may stand before or after the
command, where the later one counts; at one place no option may be given twice.  An option's value
is the next argument, or is attached to the option with or without an equals sign.
-/

namespace Scriptorium.CommandLine

/-- An option: its long name, its letter, whether it takes a value, and which values are allowed. -/
structure OptionSpec where
  name : String
  letter : Option Char := none
  takesValue : Bool := true
  allows : String → Bool := fun _ => true

/-- Why no command is carried out: help or the version was asked for, or the line is wrong. -/
inductive Stop where
  | help
  | version
  | usage
  deriving Repr, DecidableEq, Inhabited

/-- Options that were given, the latest first. -/
abbrev Given := List (String × String)

/-- What one command may be given. -/
structure Level where
  options : List OptionSpec
  /-- Whether the version may be asked for here. -/
  tellsVersion : Bool := false

namespace Level

def named? (l : Level) (name : String) : Option OptionSpec := l.options.find? (·.name = name)

def lettered? (l : Level) (c : Char) : Option OptionSpec :=
  l.options.find? fun o => o.letter == some c

end Level

/-- Notes an option; it must be new and its value allowed. -/
def note (o : OptionSpec) (value : String) (given : Given) : Except Stop Given :=
  if (given.lookup o.name).isSome || !o.allows value then .error .usage
  else .ok ((o.name, value) :: given)

def isOption (s : String) : Bool := s.toList.head? == some '-' && s != "-"

/-- Takes the value of an option from the arguments after it. -/
def takeValue (o : OptionSpec) (given : Given) : List String → Except Stop (Given × List String)
  | [] => .error .usage
  | v :: rest =>
    if isOption v then .error .usage
    else match note o v given with
      | .ok given => .ok (given, rest)
      | .error e => .error e

/-- Reads an argument that begins with two hyphens. -/
def readLong (l : Level) (given : Given) (body : String) (rest : List String) :
    Except Stop (Given × List String) :=
  let cs := body.toList
  let name := String.ofList (cs.takeWhile (· ≠ '='))
  let attached := match cs.dropWhile (· ≠ '=') with
    | _ :: v => some (String.ofList v)
    | [] => none
  match l.named? name with
  | some o =>
    match o.takesValue, attached with
    | true, some v => (note o v given).map (·, rest)
    | true, none => takeValue o given rest
    | false, some _ => .error .usage
    | false, none => (note o "" given).map (·, rest)
  | none =>
    if attached.isSome then .error .usage
    else if name = "help" then .error .help
    else if name = "version" && l.tellsVersion then .error .version
    else .error .usage

/-- Reads the letters after one hyphen. -/
def readLetters (l : Level) (given : Given) (rest : List String) :
    List Char → Except Stop (Given × List String)
  | [] => .ok (given, rest)
  | c :: r =>
    match l.lettered? c with
    | some o =>
      if o.takesValue then
        match r with
        | [] => takeValue o given rest
        | '=' :: v => (note o (String.ofList v) given).map (·, rest)
        | v => (note o (String.ofList v) given).map (·, rest)
      else
        match note o "" given with
        | .ok given => readLetters l given rest r
        | .error e => .error e
    | none =>
      if c = 'h' then .error .help
      else if c = 'V' && l.tellsVersion then .error .version
      else .error .usage

/-- Reads one argument that is an option. -/
def readOption (l : Level) (given : Given) (arg : String) (rest : List String) :
    Except Stop (Given × List String) :=
  match arg.toList with
  | '-' :: '-' :: body => readLong l given (String.ofList body) rest
  | '-' :: letters => readLetters l given rest letters
  | _ => .error .usage

/-- Reads options up to the first other argument: the options, and that argument with those after
it.  Every round takes an argument, so `fuel` is their number. -/
def readOptions (l : Level) : Nat → Given → List String →
    Except Stop (Given × Option (String × List String))
  | 0, given, _ => .ok (given, none)
  | _, given, [] => .ok (given, none)
  | fuel + 1, given, arg :: rest =>
    if arg = "--" then
      match rest with
      | [] => .ok (given, none)
      | _ => .error .usage
    else if isOption arg then
      match readOption l given arg rest with
      | .ok (given, rest) => readOptions l fuel given rest
      | .error e => .error e
    else .ok (given, some (arg, rest))

end Scriptorium.CommandLine
