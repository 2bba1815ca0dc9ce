import Scriptorium.Text.WordClass
import Scriptorium.Text.Blank

/-!
# Name patterns

A pattern is a regular expression over characters with conditions on the place where it stands.
It occurs in a text when it spans some part of it; which part is never asked, so greediness and
groups leave no trace here.
-/

namespace Scriptorium

namespace Pattern

/-- A set of characters. -/
inductive CharSet where
  | none
  | range (first last : Nat)
  | listed (ranges : List Text.CodeRange)
  | word
  | decimal
  | blank
  | union (a b : CharSet)
  | inter (a b : CharSet)
  | diff (a b : CharSet)
  | symmDiff (a b : CharSet)
  | compl (a : CharSet)
  | folded (a : CharSet)
  deriving Repr, DecidableEq, Inhabited

/-- Membership; a folded set has every character that agrees with a member but for its case. -/
def CharSet.mem : CharSet → Char → Bool
  | none, _ => false
  | range first last, c => first ≤ c.toNat && c.toNat ≤ last
  | listed rs, c => Text.inRanges rs c
  | word, c => Text.isWord c
  | decimal, c => Text.isDecimal c
  | blank, c => Text.isBlank c
  | union a b, c => a.mem c || b.mem c
  | inter a b, c => a.mem c && b.mem c
  | diff a b, c => a.mem c && !b.mem c
  | symmDiff a b, c => a.mem c != b.mem c
  | compl a, c => !a.mem c
  | folded a, c => (Text.foldClass c).any a.mem

/-- The set of one character. -/
def CharSet.one (c : Char) : CharSet := .range c.toNat c.toNat

/-- How many ranges a set is written with; folding may add one for each. -/
def CharSet.size : CharSet → Nat
  | none => 0
  | range _ _ => 1
  | listed rs => rs.length
  | word => Text.wordRangeCount
  | decimal => Text.digitRangeCount
  | blank => 10
  | union a b | inter a b | diff a b | symmDiff a b => a.size + b.size
  | compl a => a.size + 1
  | folded a => 2 * a.size

def CharSet.isAscii : CharSet → Bool
  | none => true
  | range _ last => last ≤ 0x7F
  | listed rs => rs.all (·.last ≤ 0x7F)
  | union a b | symmDiff a b => a.isAscii && b.isAscii
  | inter a b => a.isAscii || b.isAscii
  | diff a _ => a.isAscii
  | word | decimal | blank | compl _ | folded _ => false

/-- A place in a text: how far in it is, what lies before it, the nearest first, and what after. -/
structure Place where
  pos : Nat
  before : List Char
  after : List Char
  deriving Repr, DecidableEq, Inhabited

inductive Look where
  | textStart
  | textEnd
  | lineStart (crlf : Bool)
  | lineEnd (crlf : Bool)
  | boundary (ascii : Bool)
  | noBoundary (ascii : Bool)
  | wordStart (ascii : Bool)
  | wordEnd (ascii : Bool)
  | wordStartHalf (ascii : Bool)
  | wordEndHalf (ascii : Bool)
  deriving Repr, DecidableEq, Inhabited

/-- Whether a neighbour is a word character. -/
def wordAt (ascii : Bool) : Option Char → Bool
  | none => false
  | some c => Text.isWord c && (!ascii || Text.isAscii c)

def Look.holds (l : Look) (p : Place) : Bool :=
  let b (ascii : Bool) := wordAt ascii p.before.head?
  let a (ascii : Bool) := wordAt ascii p.after.head?
  match l with
  | textStart => p.before.isEmpty
  | textEnd => p.after.isEmpty
  | lineStart false => p.before.isEmpty || p.before.head? == some '\n'
  | lineStart true =>
    p.before.isEmpty || p.before.head? == some '\n' ||
      (p.before.head? == some '\r' && p.after.head? != some '\n')
  | lineEnd false => p.after.isEmpty || p.after.head? == some '\n'
  | lineEnd true =>
    p.after.isEmpty || p.after.head? == some '\r' ||
      (p.after.head? == some '\n' && p.before.head? != some '\r')
  | boundary ascii => b ascii != a ascii
  | noBoundary ascii => b ascii == a ascii
  | wordStart ascii => !b ascii && a ascii
  | wordEnd ascii => b ascii && !a ascii
  | wordStartHalf ascii => !b ascii
  | wordEndHalf ascii => !a ascii

end Pattern

/-- A regular expression. -/
inductive Pattern where
  | empty
  | chars (set : Pattern.CharSet)
  | look (l : Pattern.Look)
  | seq (p q : Pattern)
  | alt (p q : Pattern)
  | repeated (p : Pattern) (least : Nat) (most : Option Nat)
  deriving Repr, DecidableEq, Inhabited

/-- How much room a pattern takes when its repetitions are written out, in bytes.  Ranges outside
ASCII take more than one step each; what spans no character takes no room. -/
def Pattern.weight : Pattern → Nat
  | empty | look _ => 0
  | chars set => 32 + (if set.isAscii then 8 else 64) * set.size
  | seq p q | alt p q => p.weight + q.weight
  | repeated p least most => p.weight * max 1 (most.getD least)

end Scriptorium
