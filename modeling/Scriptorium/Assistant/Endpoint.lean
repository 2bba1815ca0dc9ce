import Scriptorium.Assistant.Reply
import Scriptorium.Number.Binary

/-!
# Endpoints

The settings of a chat endpoint, and the attempts of one call: a failure that another attempt may
mend is followed by another attempt as long as retries are left, after a pause that grows with the
number of the attempt.  Attempts are counted in 32 bits and times in 64, and both wrap around.
-/

namespace Scriptorium.Assistant

/-- Where and how the assistant is reached. -/
structure Endpoint where
  baseUrl : String := "https://api.openai.com/v1"
  model : String := "gpt-4o-mini"
  keyVariable : String := "OPENAI_API_KEY"
  timeoutSeconds : UInt64 := 120
  maxRetries : UInt32 := 2
  backoffMilliseconds : UInt64 := 1000
  temperature : Number.Binary Number.single := ⟨false, 0⟩
  maxTokens : Option UInt32 := none
  deriving Repr, DecidableEq

instance : Inhabited Endpoint := ⟨{}⟩

/-- What is done in one call: attempts, by their numbers, and pauses between them. -/
inductive CallStep where
  | attempt (number : Nat)
  | pause (milliseconds : Nat)
  deriving Repr, DecidableEq

/-- What is done from the `n`-th attempt on, counted from one, and the outcome of the last attempt.
`outcome n` is the outcome of the `n`-th attempt, and `left` the retries that remain. -/
def attempts (backoff : UInt64) (outcome : Nat → Except Failure String) :
    Nat → Nat → List CallStep × Except Failure String
  | 0, n => ([.attempt n], outcome n)
  | left + 1, n =>
    match outcome n with
    | .ok text => ([.attempt n], .ok text)
    | .error f =>
      if f.retryable then
        let (steps, result) := attempts backoff outcome left (n + 1)
        (.attempt n :: .pause (backoff * UInt64.ofNat n).toNat :: steps, result)
      else ([.attempt n], .error f)

namespace Endpoint

def maxAttempts (e : Endpoint) : UInt32 := e.maxRetries + 1

/-- The time that an attempt may take, in milliseconds. -/
def patience (e : Endpoint) : UInt64 := e.timeoutSeconds * 1000

/-- One call: the first attempt, and then as many as are allowed. -/
def invoke (e : Endpoint) (outcome : Nat → Except Failure String) :
    List CallStep × Except Failure String :=
  attempts e.backoffMilliseconds outcome (e.maxAttempts.toNat - 1) 1

def noConnection (e : Endpoint) (_ : Nat) : Except Failure String :=
  .error (.transport ("error sending request for url (" ++ e.baseUrl ++ "/chat/completions)"))

end Endpoint

end Scriptorium.Assistant
