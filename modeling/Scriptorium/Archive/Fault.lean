/-!
# Faults of an archive

What can go wrong when an artifact is kept, and the reasons an operating system gives.
-/

namespace Scriptorium.Archive

/-- A reason of the operating system, or that bytes are no text. -/
inductive OsError where
  | notFound
  | exists_
  | notDirectory
  | isDirectory
  | nameTooLong
  | notText
  deriving Repr, DecidableEq, Inhabited

def OsError.message : OsError → String
  | notFound => "No such file or directory (os error 2)"
  | exists_ => "File exists (os error 17)"
  | notDirectory => "Not a directory (os error 20)"
  | isDirectory => "Is a directory (os error 21)"
  | nameTooLong => "File name too long (os error 36)"
  | notText => "stream did not contain valid UTF-8"

/-- What kind of thing went wrong. -/
inductive FaultKind where
  | io
  | serialization
  | invalidPath
  deriving Repr, DecidableEq, Inhabited

namespace FaultKind

def name : FaultKind → String
  | io => "io"
  | serialization => "serialization"
  | invalidPath => "invalid_path"

def ofName? (s : String) : Option FaultKind := [io, serialization, invalidPath].find? (·.name = s)

end FaultKind

/-- Why an artifact could not be kept or read. -/
inductive Fault where
  | injected (what : String)
  | cannotCreate (path : String) (reason : OsError)
  | cannotRead (reason : OsError)
  | notJson
  | noFreeName (name dir : String) (attempts : Nat)
  | other (kind : FaultKind) (text : String)
  deriving Repr, DecidableEq, Inhabited

namespace Fault

def kind : Fault → FaultKind
  | injected _ | cannotCreate _ _ | cannotRead _ => .io
  | notJson => .serialization
  | noFreeName _ _ _ => .invalidPath
  | other k _ => k

def detail : Fault → String
  | injected what => "injected " ++ what ++ " failure"
  | cannotCreate path reason => "Failed to create " ++ path ++ ": " ++ reason.message
  | cannotRead reason => "I/O error: " ++ reason.message
  | notJson => "JSON"
  | noFreeName name dir attempts =>
    "No free file name for " ++ name ++ " in " ++ dir ++ " after " ++ toString attempts
      ++ " attempts"
  | other _ text => text

/-- What a fault says: its kind and what happened. -/
def message (f : Fault) : String := "[" ++ f.kind.name ++ "] " ++ f.detail

end Fault

end Scriptorium.Archive
