import Scriptorium.Catalog
import Scriptorium.Assistant.Reply
import Scriptorium.Text.Quoted

/-!
# Drafting

Drafting merges one component into the text of one section.  A reply replaces the text; where the
call fails the text is kept and a visible line tells of the failure.
-/

namespace Scriptorium

namespace Drafting

/-- The new text of a section, and the error if the old one was kept. -/
structure Draft where
  target : String
  text : String
  error : Option String := none
  deriving Repr, DecidableEq, Inhabited

/-- What a line about a failure begins with. -/
def marker : String := "> [generation error]"

/-- The line about a failure. -/
def placeholder (target component error : String) : String :=
  marker ++ " section '" ++ target ++ "' could not be updated for component '" ++ component
    ++ "': " ++ error

/-- The old text, without blanks at its end, and the line about a failure. -/
def Draft.failed (target component existing error : String) : Draft where
  target := target
  text :=
    let line := placeholder target component error
    if Text.blank existing then line else Text.trimEnd existing ++ "\n\n" ++ line
  error := some error

def request (template target existing : String) (c : Component) : Assistant.Request :=
  ⟨.writer, .text, template, [("section", target), ("name", c.name), ("type", c.kindLabel),
    ("documentation", c.documentation), ("existing", existing)]⟩

def ofReply (target existing : String) (c : Component) (reply : Except Assistant.Failure String) :
    Draft :=
  match reply.bind Assistant.plain with
  | .ok text => ⟨target, text, none⟩
  | .error f => .failed target c.name existing f.message

/-- What is said of a call that broke off; `N` stands for the number of its task. -/
def brokenOff (message : String) : String :=
  "writer task panicked: task N panicked with message " ++ Text.quoted message

/-- The outcome of a call, which may have broken off. -/
def ofOutcome (target existing : String) (c : Component) : Assistant.Outcome → Draft
  | .panic message => .failed target c.name existing (brokenOff message)
  | o => ofReply target existing c o.settled

end Drafting

end Scriptorium
