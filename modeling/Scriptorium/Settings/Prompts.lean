import Scriptorium.Text.Template
import Scriptorium.Text.Ordered

/-!
# Prompts

The templates of the four tasks of the assistant.  A section may have a writer template of its own.
-/

namespace Scriptorium

namespace Prompts

/-- Asks whether a component is worth documenting. -/
def standardFilter : String :=
"You decide whether a code component deserves an entry in a technical documentation set.

Component: \x7bname\x7d
Type: \x7btype\x7d
Documentation:
\x7bdocumentation\x7d

" ++ "Answer with exactly one word: DOCUMENT if the component carries meaningful behaviour "
  ++ "worth documenting, SKIP if it is trivial (imports only, constants, boilerplate)."

/-- Asks for the sections that a component belongs in. -/
def standardSelector : String :=
"You map a code component onto the sections of a technical documentation set.

Available sections:
\x7bsections\x7d

Component: \x7bname\x7d
Type: \x7btype\x7d
Documentation:
\x7bdocumentation\x7d

" ++ "Return a JSON object of the form \x7b\"relevant_sections\": [\"<section>\", ...]\x7d listing "
  ++ "only sections from the list above that this component's information belongs in."

/-- Asks for the new text of a section. -/
def standardWriter : String :=
"You maintain the \"\x7bsection\x7d\" section of a technical documentation set.

Current section content (may be empty):
\x7bexisting\x7d

New component: \x7bname\x7d
Type: \x7btype\x7d
Documentation:
\x7bdocumentation\x7d

" ++ "Rewrite the section so it integrates the new component. Keep every existing detail unless "
  ++ "the new documentation makes it more specific. Do not invent facts that are not present in "
  ++ "the documentation. Return only the updated section text in Markdown."

/-- Asks for the place of a component in the architecture. -/
def standardExtractor : String :=
"You build an architecture model of a software system one component at a time.

Component: \x7bname\x7d
Type: \x7btype\x7d
Documentation:
\x7bdocumentation\x7d

Callers: \x7bcallers\x7d
Callees: \x7bcallees\x7d

Components already in the model:
\x7bknown_components\x7d

Relationships already in the model:
\x7bknown_relationships\x7d

Return a JSON object:
" ++ "\x7b\"component\": \x7b\"name\": \"...\", \"kind\": \"API_ENDPOINT|SERVICE|CONTROLLER|MODEL|"
  ++ "DATABASE|REPOSITORY|QUEUE|EXTERNAL|UI|UTILITY|CONFIG|OTHER\", "
  ++ "\"layer\": \"PRESENTATION|APPLICATION|BUSINESS|DATA|INFRASTRUCTURE|EXTERNAL\", "
  ++ "\"responsibilities\": \"...\", \"is_significant\": true\x7d, "
  ++ "\"relationships\": [\x7b\"source\": \"...\", \"target\": \"...\", \"kind\": \"CALLS|"
  ++ "DEPENDS_ON|USES|READS|WRITES|INHERITS|IMPLEMENTS|CONTAINS\"\x7d], "
  ++ "\"diagram_fragment\": \"optional mermaid lines\"\x7d\n"
  ++ "Set is_significant to false for helpers that would only clutter an architecture diagram. "
  ++ "Do not repeat relationships already listed."

end Prompts

/-- The template of each task, and the writer templates of single sections in order. -/
structure Prompts where
  filter : String := Prompts.standardFilter
  selector : String := Prompts.standardSelector
  extractor : String := Prompts.standardExtractor
  defaultWriter : String := Prompts.standardWriter
  writers : List (String × String) := []
  deriving Repr, DecidableEq

namespace Prompts

instance : Inhabited Prompts := ⟨{}⟩

/-- The writer template of a section: its own, else the common one. -/
def writer (p : Prompts) (target : String) : String :=
  (p.writers.lookup target).getD p.defaultWriter

end Prompts

end Scriptorium
