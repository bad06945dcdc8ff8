import RequestSigning.Http.Header
import RequestSigning.Http.Uri
set_option autoImplicit false

namespace RequestSigning.Http

/-- What reading a body gives next. -/
inductive Frame where
  | data (bytes : Bytes)
  /-- Nothing yet. -/
  | pending
  | trailers
  | failure (text : String)
  deriving Repr, DecidableEq

/-- What is still to be read of a body. -/
abbrev Body := List Frame

namespace Body

def ofBytes (bytes : Bytes) : Body :=
  [.data bytes]

/-- The bytes of all data frames. -/
def bytes (body : Body) : Bytes :=
  body.flatMap fun
    | .data bytes => bytes
    | _ => []

/-- The texts of the frames that cannot be read. -/
def failures (body : Body) : List String :=
  body.filterMap fun
    | .failure text => some text
    | _ => none

/-- Reads to the end, or to the first failure. -/
def collect : Body → Except String Bytes
  | [] => .ok []
  | .data bytes :: rest => (collect rest).map (bytes ++ ·)
  | .pending :: rest => collect rest
  | .trailers :: rest => collect rest
  | .failure text :: _ => .error text

end Body

structure Request where
  method : Method
  uri : Uri
  headers : Headers
  body : Body
  deriving DecidableEq

end RequestSigning.Http
