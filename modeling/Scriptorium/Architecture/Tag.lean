import Scriptorium.Text.Blank
import Scriptorium.Text.Case

/-!
# Architecture tags

Kinds of components, layers and relations, each with its canonical tag and the tags it is also
known by.  A tag is read without regard to ASCII case, and blanks and hyphens count as underscores;
a tag nobody knows stands for `other`.
-/

namespace Scriptorium.Architecture

/-- The form in which tags are compared. -/
def normalTag (raw : String) : String :=
  String.ofList ((Text.stripBlanks raw.toList).map fun c =>
    if c = '-' ∨ c = ' ' then '_' else Text.asciiUpper c)

/-- What a component is. -/
inductive Kind where
  | apiEndpoint | service | controller | model | database | repository | queue | external | ui
  | utility | config | other
  deriving Repr, DecidableEq, Inhabited

/-- Where a component belongs, in the order in which layers are drawn. -/
inductive Layer where
  | presentation | application | business | data | infrastructure | external | other
  deriving Repr, DecidableEq, Inhabited

/-- How one component relates to another. -/
inductive Relation where
  | calls | dependsOn | uses | reads | writes | inherits | implements | contains | other
  deriving Repr, DecidableEq, Inhabited

namespace Kind

def tag : Kind → String
  | apiEndpoint => "API_ENDPOINT"
  | service => "SERVICE"
  | controller => "CONTROLLER"
  | model => "MODEL"
  | database => "DATABASE"
  | repository => "REPOSITORY"
  | queue => "QUEUE"
  | external => "EXTERNAL"
  | ui => "UI"
  | utility => "UTILITY"
  | config => "CONFIG"
  | other => "OTHER"

def tags : List (String × Kind) := [
  ("API_ENDPOINT", apiEndpoint), ("API", apiEndpoint), ("ENDPOINT", apiEndpoint),
  ("ROUTE", apiEndpoint), ("SERVICE", service), ("CONTROLLER", controller),
  ("HANDLER", controller), ("MODEL", model), ("ENTITY", model), ("SCHEMA", model),
  ("DATABASE", database), ("DB", database), ("REPOSITORY", repository), ("DAO", repository),
  ("QUEUE", queue), ("MESSAGE_QUEUE", queue), ("EXTERNAL", external),
  ("EXTERNAL_SERVICE", external), ("THIRD_PARTY", external), ("UI", ui), ("VIEW", ui),
  ("FRONTEND", ui), ("UTILITY", utility), ("UTIL", utility), ("HELPER", utility),
  ("CONFIG", config), ("CONFIGURATION", config)]

def ofTag (raw : String) : Kind := (tags.lookup (normalTag raw)).getD other

end Kind

namespace Layer

def all : List Layer :=
  [presentation, application, business, data, infrastructure, external, other]

def tag : Layer → String
  | presentation => "PRESENTATION"
  | application => "APPLICATION"
  | business => "BUSINESS"
  | data => "DATA"
  | infrastructure => "INFRASTRUCTURE"
  | external => "EXTERNAL"
  | other => "OTHER"

def title : Layer → String
  | presentation => "Presentation Layer"
  | application => "Application Layer"
  | business => "Business Layer"
  | data => "Data Layer"
  | infrastructure => "Infrastructure Layer"
  | external => "External Systems"
  | other => "Other Components"

def tags : List (String × Layer) := [
  ("PRESENTATION", presentation), ("UI", presentation), ("API", presentation),
  ("INTERFACE", presentation), ("APPLICATION", application), ("SERVICE", application),
  ("BUSINESS", business), ("DOMAIN", business), ("LOGIC", business),
  ("BUSINESS_LOGIC", business), ("DATA", data), ("PERSISTENCE", data), ("STORAGE", data),
  ("DATA_ACCESS", data), ("INFRASTRUCTURE", infrastructure), ("INFRA", infrastructure),
  ("PLATFORM", infrastructure), ("EXTERNAL", external), ("THIRD_PARTY", external)]

def ofTag (raw : String) : Layer := (tags.lookup (normalTag raw)).getD other

end Layer

namespace Relation

def tag : Relation → String
  | calls => "CALLS"
  | dependsOn => "DEPENDS_ON"
  | uses => "USES"
  | reads => "READS"
  | writes => "WRITES"
  | inherits => "INHERITS"
  | implements => "IMPLEMENTS"
  | contains => "CONTAINS"
  | other => "RELATES_TO"

def verb : Relation → String
  | calls => "calls"
  | dependsOn => "depends on"
  | uses => "uses"
  | reads => "reads from"
  | writes => "writes to"
  | inherits => "inherits from"
  | implements => "implements"
  | contains => "contains"
  | other => "relates to"

def tags : List (String × Relation) := [
  ("CALLS", calls), ("CALL", calls), ("INVOKES", calls), ("DEPENDS_ON", dependsOn),
  ("DEPENDS", dependsOn), ("IMPORTS", dependsOn), ("USES", uses), ("USE", uses),
  ("READS", reads), ("READS_FROM", reads), ("QUERIES", reads), ("WRITES", writes),
  ("WRITES_TO", writes), ("STORES", writes), ("INHERITS", inherits), ("EXTENDS", inherits),
  ("INHERITS_FROM", inherits), ("IMPLEMENTS", implements), ("CONTAINS", contains),
  ("OWNS", contains)]

def ofTag (raw : String) : Relation := (tags.lookup (normalTag raw)).getD other

end Relation

end Scriptorium.Architecture
