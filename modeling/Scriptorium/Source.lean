import Scriptorium.Settings.Record
import Scriptorium.Catalog
import Scriptorium.CallGraph
import Scriptorium.Archive.Fault

/-!
# Sources

Settings, catalogs and call graphs come from files.  A file that cannot be read, or that holds no
text, is an error of the same kind as a text that says something wrong.
-/

namespace Scriptorium

/-- Why a file gave no text. -/
inductive ReadFault where
  | system (e : Archive.OsError)
  | notText
  | other (reason : String)
  deriving Repr, DecidableEq, Inhabited

def ReadFault.message : ReadFault → String
  | system e => e.message
  | notText => "stream did not contain valid UTF-8"
  | other reason => reason

/-- The content of a file as far as it could be read. -/
abbrev Content := Except ReadFault String

def Settings.load (path : String) : Content → Except Settings.Error Settings
  | .error f => .error (.unreadable path f.message)
  | .ok text => Settings.ofYaml text

def Catalog.load (path : String) : Content → Except Catalog.Error Catalog
  | .error f => .error (.unreadable path f.message)
  | .ok text => Catalog.ofText text

def CallGraph.load (path : String) : Content → Except CallGraph.Error CallGraph
  | .error f => .error (.unreadable path f.message)
  | .ok text => CallGraph.ofText text

end Scriptorium
