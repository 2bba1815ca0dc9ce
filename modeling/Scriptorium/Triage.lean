import Scriptorium.Catalog
import Scriptorium.Worklist
import Scriptorium.Pattern.Search
import Scriptorium.Pattern.Reader
import Scriptorium.Text.Excerpt
import Scriptorium.Text.Lines
import Scriptorium.Text.Search
import Scriptorium.Assistant.Reply

/-!
# Triage

Triage decides whether a component is documented.  Its rules are tried in order and the first that
holds decides: a trivial name, too few words, too few lines of substance when there is more than
one line, a trivial phrase, enough substantial keywords.  Where no rule holds the assistant is
asked, and whatever is not a clear refusal accepts.
-/

namespace Scriptorium

namespace Triage

/-- Word lists and thresholds. -/
structure Rules where
  namePatterns : List String
  minWords : Nat
  minLines : Nat
  phrases : List String
  keywords : List String
  keywordThreshold : Nat
  deriving Repr, DecidableEq, Inhabited

/-- Why a component is documented or not. -/
inductive Reason where
  | trivialName (pattern : String)
  | tooFewWords (count : Nat)
  | tooFewLines (count : Nat)
  | trivialPhrase (phrase : String)
  | substantialKeywords (count : Nat)
  | verdict (text : String)
  | failedOpen (error : String)
  deriving Repr, DecidableEq, Inhabited

namespace Reason

def message : Reason → String
  | trivialName pattern => "name matches trivial pattern " ++ pattern
  | tooFewWords count => "only " ++ toString count ++ " words"
  | tooFewLines count => "only " ++ toString count ++ " substantive lines"
  | trivialPhrase phrase => "contains '" ++ phrase ++ "'"
  | substantialKeywords count => toString count ++ " substantial keywords"
  | verdict text => "classifier said " ++ text
  | failedOpen error => "classifier failed (" ++ error ++ "), accepting"

/-- Whether the assistant was asked. -/
def asked : Reason → Bool
  | verdict _ | failedOpen _ => true
  | _ => false

def toJson (r : Reason) : Json :=
  let rule (name field : String) (v : Json) : Json := .obj [("rule", .str name), (field, v)]
  match r with
  | trivialName pattern => rule "trivial_name" "pattern" (.str pattern)
  | tooFewWords count => rule "too_few_words" "count" (.nat count)
  | tooFewLines count => rule "too_few_substantive_lines" "count" (.nat count)
  | trivialPhrase phrase => rule "trivial_phrase" "phrase" (.str phrase)
  | substantialKeywords count => rule "substantial_keywords" "count" (.nat count)
  | verdict text => rule "classifier_verdict" "verdict" (.str text)
  | failedOpen error => rule "classifier_failed_open" "error" (.str error)

def ofField? (rule : String) (rest : Json) : Option Reason :=
  let field (name : String) : Option Json.Slot := do
    match ← Json.slots [[name]] rest with
    | [s] => some s
    | _ => none
  let text (name : String) (f : String → Reason) : Option Reason := do
    return f (← (← field name).required Json.asString?)
  let count (f : Nat → Reason) : Option Reason := do
    return f (← (← field "count").required Json.asNat?)
  match rule with
  | "trivial_name" => text "pattern" trivialName
  | "too_few_words" => count tooFewWords
  | "too_few_substantive_lines" => count tooFewLines
  | "trivial_phrase" => text "phrase" trivialPhrase
  | "substantial_keywords" => count substantialKeywords
  | "classifier_verdict" => text "verdict" verdict
  | "classifier_failed_open" => text "error" failedOpen
  | _ => none

/-- Reads a reason: its rule, told once, and the field of that rule. -/
def ofJson? : Json → Option Reason
  | .obj ms =>
    match ms.filter (·.1 = "rule") with
    | [(_, .str rule)] => ofField? rule (.obj (ms.filter (·.1 ≠ "rule")))
    | _ => none
  | .arr (.str rule :: rest) => ofField? rule (.arr rest)
  | _ => none

end Reason

/-- A verdict with its reason. -/
structure Outcome where
  verdict : Verdict
  reason : Reason
  deriving Repr, DecidableEq, Inhabited

/-! ## Lines of substance -/

/-- Whether a list begins with the characters of a text; the rest after them. -/
def after? (word : String) (cs : List Char) : Option (List Char) :=
  if Text.startsWith word.toList cs then some (cs.drop word.length) else none

/-- The rest after at least one blank and all blanks that follow it. -/
def afterBlanks? (cs : List Char) : Option (List Char) :=
  match cs with
  | c :: r => if Text.isBlank c then some (Text.dropBlanks r) else none
  | [] => none

/-- Whether a line imports something: `import x`, `from x import y` or `use x;`. -/
def isImport (line : List Char) : Bool :=
  let imports := match (after? "import" line).bind afterBlanks? with
    | some rest => !rest.isEmpty
    | none => false
  let from_ := match (after? "from" line).bind afterBlanks? with
    | some rest =>
      let source := rest.takeWhile (!Text.isBlank ·)
      match (afterBlanks? (rest.dropWhile (!Text.isBlank ·))).bind (after? "import") with
      | some (c :: _) => !source.isEmpty && Text.isBlank c
      | _ => false
    | none => false
  let uses := match (after? "use" line).bind afterBlanks? with
    | some rest => 2 ≤ rest.length && rest.all (!Text.isBlank ·) && rest.getLast? == some ';'
    | none => false
  imports || from_ || uses

/-- Whether a character may begin an identifier. -/
def isNameStart (c : Char) : Bool := (Text.isAscii c && c.isAlpha) || c == '_'

/-- Whether a character may stand in an identifier. -/
def isNamePart (c : Char) : Bool := (Text.isAscii c && c.isAlphanum) || c == '_'

/-- Whether a value follows an equals sign: anything but another equals sign. -/
def startsValue : List Char → Bool
  | [] => false
  | c :: _ => c != '='

/-- Whether a line gives a name a value, with or without an annotation between them. -/
def isAssignment (line : List Char) : Bool :=
  match line with
  | [] => false
  | c :: r =>
    isNameStart c && match Text.dropBlanks (r.dropWhile isNamePart) with
      | '=' :: value => startsValue value
      | ':' :: rest =>
        match rest.dropWhile (· ≠ '=') with
        | _ :: value => rest.head? != some '=' && startsValue value
        | [] => false
      | _ => false

/-- Whether a line consists of a docstring delimiter. -/
def isDelimiter (line : List Char) : Bool :=
  line.all (fun c => c == '"' || c == '\'') &&
    (Text.startsWith ['"', '"', '"'] line || Text.startsWith ['\'', '\'', '\''] line)

/-- Whether a line carries content: it is not blank, a comment, a delimiter, an import or an
assignment. -/
def isSubstantive (line : List Char) : Bool :=
  let line := Text.stripBlanks line
  !line.isEmpty && !Text.startsWith ['#'] line && !Text.startsWith ['/', '/'] line &&
    !isDelimiter line && !isImport line && !isAssignment line

/-- The number of lines that carry content. -/
def substantiveCount (text : String) : Nat := (Text.splitLines text.toList).countP isSubstantive

/-! ## Local rules -/

/-- A name pattern that cannot be read. -/
structure BadPattern where
  pattern : String
  deriving Repr, DecidableEq

/-- Reads all name patterns, or tells the first that cannot be read. -/
def readPatterns (patterns : List String) : Except BadPattern (List (String × Pattern)) :=
  patterns.mapM fun s => match Pattern.ofText? s with
    | some p => .ok (s, p)
    | none => .error ⟨s⟩

/-- The entries of a word list as they are searched for: trimmed, in lower case, not empty. -/
def searchTerms (l : List String) : List String :=
  (l.map fun s => Text.lowercase (Text.trim s)).filter (· ≠ "")

/-- Rules that are ready for use. -/
structure Sieve where
  rules : Rules
  patterns : List (String × Pattern)
  deriving Repr, DecidableEq, Inhabited

/-- Makes rules ready for use. -/
def Sieve.ofRules (rules : Rules) : Except BadPattern Sieve := do
  return ⟨rules, ← readPatterns rules.namePatterns⟩

namespace Sieve

/-- The first name pattern that occurs in a name. -/
def trivialPattern? (s : Sieve) (name : String) : Option String :=
  (s.patterns.find? fun (_, p) => p.occursIn name).map (·.1)

/-- The number of lines of substance, when there are several lines and too few of substance. -/
def fewLines? (s : Sieve) (text : String) : Option Nat :=
  let several := 1 < (Text.splitLines text.toList).countP fun l => !(Text.stripBlanks l).isEmpty
  let count := substantiveCount text
  if several ∧ count < s.rules.minLines then some count else none

/-- The first trivial phrase in a text that is in lower case. -/
def phrase? (s : Sieve) (lowered : String) : Option String :=
  (searchTerms s.rules.phrases).find? (Text.contains lowered ·)

/-- How many keywords occur in a text that is in lower case. -/
def keywordHits (s : Sieve) (lowered : String) : Nat :=
  (searchTerms s.rules.keywords).countP (Text.contains lowered ·)

/-- The verdict of the local rules, none when they leave it open. -/
def judge? (s : Sieve) (c : Component) : Option Outcome :=
  match s.trivialPattern? c.name with
  | some p => some ⟨.reject, .trivialName p⟩
  | none =>
    let words := Text.wordCount c.documentation
    if words < s.rules.minWords then some ⟨.reject, .tooFewWords words⟩
    else match s.fewLines? c.documentation with
      | some n => some ⟨.reject, .tooFewLines n⟩
      | none =>
        let lowered := Text.lowercase c.documentation
        match s.phrase? lowered with
        | some p => some ⟨.reject, .trivialPhrase p⟩
        | none =>
          let hits := s.keywordHits lowered
          if s.rules.keywordThreshold ≤ hits then some ⟨.accept, .substantialKeywords hits⟩
          else none

end Sieve

/-! ## The assistant's verdict -/

/-- Whether a character is an ASCII letter or digit. -/
def isPlain (c : Char) : Bool := Text.isAscii c && c.isAlphanum

/-- The first run of ASCII letters and digits in a reply. -/
def firstToken (cs : List Char) : List Char := (cs.dropWhile (!isPlain ·)).takeWhile isPlain

/-- The verdict that a reply begins with, if it is a clear one. -/
def readVerdict (reply : String) : Option Verdict :=
  let token := String.ofList ((firstToken reply.toList).map Text.asciiUpper)
  if token ∈ ["DOCUMENT", "ACCEPT", "YES"] then some .accept
  else if token ∈ ["SKIP", "REJECT", "NO"] then some .reject
  else none

def request (template : String) (c : Component) : Assistant.Request :=
  ⟨.filter, .text, template,
    [("name", c.name), ("type", c.kindLabel), ("documentation", c.documentation)]⟩

/-- The outcome of asking: a reply that is no clear verdict accepts, and so does a failure. -/
def ofReply : Except Assistant.Failure String → Outcome
  | .error f => ⟨.accept, .failedOpen f.message⟩
  | .ok reply =>
    let text := Text.trim reply
    match readVerdict reply with
    | some v => ⟨v, .verdict text⟩
    | none =>
      ⟨.accept, .failedOpen ("unrecognized verdict '" ++ Text.preview 40 text ++ "'")⟩

end Triage

end Scriptorium
