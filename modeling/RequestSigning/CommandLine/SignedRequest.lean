import RequestSigning.Calendar
import RequestSigning.Http.Request
import RequestSigning.Text.JsonText
set_option autoImplicit false

namespace RequestSigning.CommandLine

open Http

/-- Of several neighbours with one name the last. -/
def lastOfEach : List (String × String) → List (String × String)
  | [] => []
  | [entry] => [entry]
  | entry :: next :: later =>
    if entry.1 = next.1 then lastOfEach (next :: later) else entry :: lastOfEach (next :: later)

/-- What is told of a signed request. -/
structure SignedRequest where
  method : String
  url : String
  headers : List (String × String)
  expiresAt : String
  deriving Repr, DecidableEq

namespace SignedRequest

/-- The headers are sorted, and a name has one value. -/
def ofRequest (request : Request) (expiration : UnixTime) : SignedRequest where
  method := request.method.text
  url := request.uri.text
  headers := lastOfEach (request.headers.sorted.map fun (name, value) => (name.text, value.text))
  expiresAt := (DateTime.ofUnixTime expiration).rfc3339

/-- The request as its receiver reads it. -/
def received? (signed : SignedRequest) (body : Body) : Option Request := do
  let method ← Method.ofText? signed.method
  let uri ← (Uri.parse (Bytes.ofString signed.url)).toOption
  let entries ← signed.headers.mapM fun (name, value) => do
    return (← HeaderName.ofText? name, ← HeaderValue.ofText? value)
  return { method, uri, headers := ⟨entries⟩, body }

def text (signed : SignedRequest) : String :=
  JsonText.object 0 [
    ("method", JsonText.quote signed.method),
    ("url", JsonText.quote signed.url),
    ("headers", JsonText.object 2 (signed.headers.map fun (name, value) =>
      (name, JsonText.quote value))),
    ("expires_at", JsonText.quote signed.expiresAt)]

end SignedRequest

end RequestSigning.CommandLine
