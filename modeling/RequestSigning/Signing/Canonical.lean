import RequestSigning.Http.Request
import RequestSigning.Signing.Names
set_option autoImplicit false

namespace RequestSigning.Signing

open Http

/-- The method in lower case, a space, and the path and query; an address without a path
has the root's. -/
def requestTarget (method : Method) (uri : Uri) : String :=
  lowercase method.text ++ " " ++ (uri.target?.map PathAndQuery.text).getD PathAndQuery.root.text

/-- The text of a header's first value, and nothing where it is missing. -/
def headerText (headers : Headers) (name : HeaderName) : String :=
  ((headers.get? name).map HeaderValue.text).getD ""

/-- The address's host, with the port where it has one; the host header where it has no host. -/
def hostText (uri : Uri) (headers : Headers) : String :=
  match uri.host? with
  | some host =>
    match uri.authority?.bind Authority.port? with
    | some port => s!"{host}:{port}"
    | none => host
  | none => headerText headers .host

/-- What is signed for a name in lower case. -/
def nameValue (request : Request) (name : String) : String :=
  if name = requestTargetName then requestTarget request.method request.uri
  else if name = HeaderName.host.text then hostText request.uri request.headers
  else ((HeaderName.ofText? name).map (headerText request.headers)).getD ""

/-- A line for each name in order, with nothing after the last. -/
def signingString (request : Request) (names : List String) : String :=
  "\n".intercalate (names.map fun name =>
    lowercase name ++ ": " ++ nameValue request (lowercase name))

end RequestSigning.Signing
