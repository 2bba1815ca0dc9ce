/-!
# Failures of the assistant

A failure of the assistant never ends a run: the task that met it goes on with a default.
-/

namespace Scriptorium.Assistant

/-- Why a call gave no reply that can be used. -/
inductive Failure where
  | transport (reason : String)
  | timeout (milliseconds : Nat)
  | status (code : Nat) (body : String)
  | malformed (reason : String)
  | empty
  | unavailable (reason : String)
  deriving Repr, DecidableEq, Inhabited

/-- How a failure may affect a run. -/
inductive Severity where
  | recoverable
  | fatal
  deriving Repr, DecidableEq, Inhabited

namespace Severity

def name : Severity → String
  | recoverable => "recoverable"
  | fatal => "fatal"

/-- The name of a severity as records spell it. -/
def recordName : Severity → String
  | recoverable => "Recoverable"
  | fatal => "Fatal"

def ofName? (s : String) : Option Severity := [recoverable, fatal].find? (·.name = s)

end Severity

namespace Failure

def message : Failure → String
  | transport reason => "Transport error: " ++ reason
  | timeout ms => "Timed out after " ++ toString ms ++ "ms"
  | status code body => "HTTP " ++ toString code ++ ": " ++ body
  | malformed reason => "Malformed response: " ++ reason
  | empty => "Empty response"
  | unavailable reason => "Capability unavailable: " ++ reason

/-- Whether another attempt may succeed: the call did not get through, or the server was busy. -/
def retryable : Failure → Bool
  | transport _ | timeout _ => true
  | status code _ => code == 429 || 500 ≤ code
  | malformed _ | empty | unavailable _ => false

/-- A failure of the assistant is always recoverable. -/
def severity (_ : Failure) : Severity := .recoverable

end Failure

end Scriptorium.Assistant
