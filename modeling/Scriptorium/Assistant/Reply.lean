import Scriptorium.Assistant.Request
import Scriptorium.Assistant.Failure
import Scriptorium.Json.Object
import Scriptorium.Json.Record

/-!
# Replies

An assistant answers a request with a text or a failure; a call may also break off.  Structured
replies are read from the first JSON object in the text.
-/

namespace Scriptorium.Assistant

/-- The outcome of a call: a reply, a failure, or the panic that broke it off. -/
inductive Outcome where
  | reply (text : String)
  | failure (f : Failure)
  | panic (message : String)
  deriving Repr, DecidableEq, Inhabited

/-- What an assistant answers to its `n`-th request, counted from zero. -/
abbrev Answering := Nat → Request → Outcome

/-- The reply or the failure of a call; one that broke off could not be had.  This is what becomes of
the calls of a fan-out, which are tasks of their own.  A call that a run makes in place, to judge a
component or to pick its sections, would unwind the run if it broke off; here it fails. -/
def Outcome.settled : Outcome → Except Failure String
  | reply text => .ok text
  | failure f => .error f
  | panic message => .error (.unavailable message)

def Outcome.brokeOff : Outcome → Bool
  | panic _ => true
  | _ => false

/-- Reads a structured reply: it must not be blank, and must hold an object of the right form. -/
def decode {α : Type} (read : Json → Option α) (text : String) : Except Failure α :=
  if Text.blank text then .error .empty
  else match Json.firstObject? text with
    | none => .error (.malformed "response contains no JSON object")
    | some slice =>
      match (Json.parse? slice).bind read with
      | some a => .ok a
      | none => .error (.malformed "object has another form")

/-- The text of a reply without a fence around it; a blank one is no reply. -/
def plain (text : String) : Except Failure String :=
  let inner := Text.unfence text
  if Text.blank inner then .error .empty else .ok inner

end Scriptorium.Assistant
