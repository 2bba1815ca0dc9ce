import Scriptorium.Json.Reader
import Scriptorium.Text.Fence

/-!
# JSON objects inside replies

A reply may carry prose or a fence around the object it was asked for.  Each opening brace is tried
in turn, and the first from which a whole object can be read gives the slice of that object.
-/

namespace Scriptorium.Json

/-- The characters of the first whole object, without what precedes and follows it. -/
def objectSlice? : List Char → Option (List Char)
  | [] => none
  | c :: r =>
    if c = '\x7b' then
      match readFront (c :: r) with
      | some (.obj _, rest) => some ((c :: r).take ((c :: r).length - rest.length))
      | _ => objectSlice? r
    else objectSlice? r

/-- The text of the first whole object in a reply, once a fence around the reply is removed. -/
def firstObject? (reply : String) : Option String :=
  (objectSlice? (Text.unfenceChars reply.toList)).map String.ofList

end Scriptorium.Json
