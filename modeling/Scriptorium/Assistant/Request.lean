import Scriptorium.Text.Template

/-!
# Requests to the assistant

Every judgment that the local rules leave open goes to an assistant as a prompt template with
values for its placeholders.  A request says which task it belongs to and which shape of reply is
wanted.
-/

namespace Scriptorium.Assistant

/-- What the assistant is asked to do. -/
inductive Task where
  | filter | selector | writer | extractor
  deriving Repr, DecidableEq, Inhabited

namespace Task

/-- All tasks in the order of the work on a component. -/
def all : List Task := [filter, selector, writer, extractor]

def name : Task → String
  | filter => "filter"
  | selector => "selector"
  | writer => "writer"
  | extractor => "extractor"

def ofName? (s : String) : Option Task := all.find? (·.name = s)

end Task

/-- The shape of a reply. -/
inductive Format where
  | text | json
  deriving Repr, DecidableEq, Inhabited

namespace Format

def name : Format → String
  | text => "text"
  | json => "json"

def ofName? (s : String) : Option Format := [text, json].find? (·.name = s)

end Format

/-- One call of the assistant. -/
structure Request where
  task : Task
  format : Format
  template : String
  «variables» : Text.Variables
  deriving Repr, DecidableEq, Inhabited

namespace Request

/-- The value of a variable, empty when it has none. -/
def value (r : Request) (name : String) : String := (r.variables.lookup name).getD ""

def prompt (r : Request) : String := Text.render r.template r.variables

end Request

end Scriptorium.Assistant
