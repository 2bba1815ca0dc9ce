import Scriptorium.Yaml.Node
import Scriptorium.Yaml.Token

/-!
# YAML documents

A text holds at most one document, which is one node.  Nodes are read from tokens; anchors name
nodes from the place where they begin, and the last node of a name counts.
-/

namespace Scriptorium.Yaml

/-- The tokens still to come and what was named before them. -/
structure Source where
  tokens : List Token
  /-- The numbers of the nodes that anchors name, the latest first. -/
  anchors : List (String × Nat) := []
  /-- The nodes that are complete, by number. -/
  known : List (Nat × Node) := []
  handles : List (String × String) := []
  deriving Repr, Inhabited

namespace Source

def drop (s : Source) : Source := { s with tokens := s.tokens.drop 1 }

/-- Whether one of some tokens is next. -/
def isNext (s : Source) (ts : List Token) : Bool := s.tokens.head?.any (ts.contains ·)

/-- The source after a token that must be next. -/
def expect? (s : Source) (t : Token) : Option Source := if s.isNext [t] then some s.drop else none

/-- The node that an alias stands for. -/
def resolve? (s : Source) (name : String) : Option Node :=
  (s.anchors.lookup name).map fun n => (s.known.lookup n).getD .loop

/-- Names the node that begins here, if there is an anchor; its number. -/
def name (s : Source) : Option String → Nat × Source
  | none => (0, s)
  | some a =>
    let n := s.anchors.length + 1
    (n, { s with anchors := (a, n) :: s.anchors })

/-- Notes that a node is complete. -/
def finish (n : Nat) : Option (Node × Source) → Option (Node × Source)
  | some (v, s) => some (v, if n = 0 then s else { s with known := (n, v) :: s.known })
  | none => none

/-- The full form of a tag. -/
def fullTag? (s : Source) (handle suffix : String) : Option String :=
  if handle = "" then some suffix else (s.handles.lookup handle).map (· ++ suffix)

end Source

/-- Anchor and tag of a node, in either order. -/
def readProperties (s : Source) : Option (Option String × Option String × Source) :=
  match s.tokens with
  | .anchor a :: .tag h x :: r => do some (some a, some (← s.fullTag? h x), { s with tokens := r })
  | .tag h x :: .anchor a :: r => do some (some a, some (← s.fullTag? h x), { s with tokens := r })
  | .anchor a :: r => some (some a, none, { s with tokens := r })
  | .tag h x :: r => do some (none, some (← s.fullTag? h x), { s with tokens := r })
  | _ => some (none, none, s)

/-- Where a node stands: inside brackets, in a block, or as a part of a mapping in a block, where a
list need not be indented. -/
inductive Setting where
  | flow | block | member
  deriving Repr, DecidableEq

/-- A node unless one of some tokens is next, which leave it empty. -/
def unlessNext (stops : List Token) (read : Source → Option (Node × Source)) (s : Source) :
    Option (Node × Source) :=
  if s.tokens.isEmpty || s.isNext stops then some (.empty, s) else read s

mutual

def readNode (fuel : Nat) (place : Setting) (s : Source) : Option (Node × Source) :=
  match fuel with
  | 0 => none
  | fuel + 1 =>
    match s.tokens with
    | .alias a :: r => (s.resolve? a).map fun n => (n, { s with tokens := r })
    | _ =>
      match readProperties s with
      | none => none
      | some (anchor, tag, s) =>
        let (n, s) := s.name anchor
        Source.finish n <|
          match s.tokens with
          | .scalar form text :: _ => some (.scalar ⟨text, form, tag⟩, s.drop)
          | .openBracket :: _ => readFlowItems fuel true s.drop
          | .openBrace :: _ => readFlowEntries fuel true s.drop
          | .sequenceStart :: _ => if place = .flow then none else readItems fuel s.drop
          | .mappingStart :: _ => if place = .flow then none else readEntries fuel s.drop
          | .entry :: _ => if place = .member then readLooseItems fuel s else
            if anchor.isSome || tag.isSome then some (.scalar ⟨"", .plain, tag⟩, s) else none
          | _ =>
            if anchor.isSome || tag.isSome then some (.scalar ⟨"", .plain, tag⟩, s) else none

/-- Reads the entries of a list in a block. -/
def readItems (fuel : Nat) (s : Source) : Option (Node × Source) :=
  match fuel with
  | 0 => none
  | fuel + 1 =>
    if s.isNext [.blockEnd] then some (.sequence [], s.drop)
    else do
      let s ← s.expect? .entry
      let (v, s) ← unlessNext [.entry, .blockEnd] (readNode fuel .block) s
      match ← readItems fuel s with
      | (.sequence vs, s) => some (.sequence (v :: vs), s)
      | _ => none

/-- Reads the entries of a list that is indented as the mapping around it. -/
def readLooseItems (fuel : Nat) (s : Source) : Option (Node × Source) :=
  match fuel with
  | 0 => none
  | fuel + 1 =>
    if s.isNext [.entry] then do
      let (v, s) ← unlessNext [.entry, .key, .value, .blockEnd] (readNode fuel .block) s.drop
      match ← readLooseItems fuel s with
      | (.sequence vs, s) => some (.sequence (v :: vs), s)
      | _ => none
    else some (.sequence [], s)

/-- Reads the value of a key in a block. -/
def readMember (fuel : Nat) (s : Source) : Option (Node × Source) :=
  match fuel with
  | 0 => none
  | fuel + 1 =>
    if s.isNext [.value] then
      unlessNext [.key, .value, .blockEnd] (readNode fuel .member) s.drop
    else some (.empty, s)

/-- Reads the entries of a mapping in a block. -/
def readEntries (fuel : Nat) (s : Source) : Option (Node × Source) :=
  match fuel with
  | 0 => none
  | fuel + 1 =>
    if s.isNext [.blockEnd] then some (.mapping [], s.drop)
    else do
      let s ← s.expect? .key
      let (k, s) ← unlessNext [.key, .value, .blockEnd] (readNode fuel .member) s
      let (v, s) ← readMember fuel s
      match ← readEntries fuel s with
      | (.mapping es, s) => some (.mapping ((k, v) :: es), s)
      | _ => none

/-- Reads the value of a key inside brackets. -/
def readFlowValue (fuel : Nat) (stop : Token) (s : Source) : Option (Node × Source) :=
  match fuel with
  | 0 => none
  | fuel + 1 =>
    if s.isNext [.value] then unlessNext [.comma, stop] (readNode fuel .flow) s.drop
    else some (.empty, s)

/-- Reads an entry of a list inside brackets; a pair stands for a mapping with one key.  A pair
without a key loses the colon of its value. -/
def readFlowItem (fuel : Nat) (s : Source) : Option (Node × Source) :=
  match fuel with
  | 0 => none
  | fuel + 1 =>
    if s.isNext [.key] then do
      let s := s.drop
      let (k, s) ←
        if s.isNext [.value, .comma, .closeBracket] then some (.empty, s.drop)
        else readNode fuel .flow s
      let (v, s) ← readFlowValue fuel .closeBracket s
      some (.mapping [(k, v)], s)
    else readNode fuel .flow s

/-- Reads the entries of a list inside brackets. -/
def readFlowItems (fuel : Nat) (first : Bool) (s : Source) : Option (Node × Source) :=
  match fuel with
  | 0 => none
  | fuel + 1 =>
    if s.isNext [.closeBracket] then some (.sequence [], s.drop)
    else do
      let s ← if first then some s else s.expect? .comma
      if s.isNext [.closeBracket] then some (.sequence [], s.drop)
      else
        let (v, s) ← readFlowItem fuel s
        match ← readFlowItems fuel false s with
        | (.sequence vs, s) => some (.sequence (v :: vs), s)
        | _ => none

/-- Reads the entries of a mapping inside brackets. -/
def readFlowEntries (fuel : Nat) (first : Bool) (s : Source) : Option (Node × Source) :=
  match fuel with
  | 0 => none
  | fuel + 1 =>
    if s.isNext [.closeBrace] then some (.mapping [], s.drop)
    else do
      let s ← if first then some s else s.expect? .comma
      if s.isNext [.closeBrace] then some (.mapping [], s.drop)
      else
        let ((k, v), s) ←
          if s.isNext [.key] then do
            let (k, s) ← unlessNext [.value, .comma, .closeBrace] (readNode fuel .flow) s.drop
            let (v, s) ← readFlowValue fuel .closeBrace s
            some ((k, v), s)
          else do
            let (k, s) ← readNode fuel .flow s
            some ((k, .empty), s)
        match ← readFlowEntries fuel false s with
        | (.mapping es, s) => some (.mapping ((k, v) :: es), s)
        | _ => none

end

/-- Reads the directives of a document, given whether a version was told and the handles so far. -/
def readDirectives (told : Bool) (handles : List (String × String)) :
    List Token → Option (List (String × String) × List Token)
  | .version major minor :: r =>
    if told || major != 1 || (minor != 1 && minor != 2) then none
    else readDirectives true handles r
  | .tagHandle h m :: r =>
    if (handles.lookup h).isSome then none else readDirectives told ((h, m) :: handles) r
  | ts => some (handles, ts)

/-- The handles that every document knows. -/
def standardHandles : List (String × String) := [("!", "!"), ("!!", "tag:yaml.org,2002:")]

/-- Whether a token comes before or after a document. -/
def isOutside : Token → Bool
  | .version _ _ | .tagHandle _ _ | .documentStart => true
  | _ => false

/-- Reads the node of a document that a marker begins. -/
def readExplicit (fuel : Nat) (s : Source) : Option (Node × Source) :=
  if s.tokens.isEmpty || s.tokens.head?.any isOutside || s.isNext [.documentEnd] then
    some (.empty, s)
  else readNode fuel .block s

/-- Reads a document: its node and the tokens after it. -/
def readDocument (ts : List Token) : Option (Node × List Token) := do
  let fuel := 4 * ts.length + 4
  if ts.head?.any isOutside then
    let (handles, r) ← readDirectives false [] ts
    match r with
    | .documentStart :: r =>
      let (n, s) ← readExplicit fuel { tokens := r, handles := handles ++ standardHandles }
      some (n, s.tokens)
    | _ => none
  else
    let (n, s) ← readNode fuel .block { tokens := ts, handles := standardHandles }
    some (n, s.tokens)

/-- The node of a text that holds at most one document; a text without one is empty. -/
def Node.ofText? (text : String) : Option Node := do
  let ts ← tokens? text
  if ts.isEmpty then some .empty
  else
    let (n, r) ← readDocument ts
    if r.all (· == .documentEnd) then some n else none

end Scriptorium.Yaml
