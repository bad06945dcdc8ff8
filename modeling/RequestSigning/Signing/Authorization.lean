import RequestSigning.Text.Base64
import RequestSigning.Text.Utf8
set_option autoImplicit false

namespace RequestSigning.Signing

/-- What the authorization header says. -/
structure Authorization where
  names : List String
  keyId : String
  signature : Bytes
  deriving Repr, DecidableEq

namespace Authorization

def version : String := "1"

def algorithm : String := "rsa-sha256"

def scheme : String := "Signature "

/-- The parameters by name, in the order in which they are written. -/
def parameters (authorization : Authorization) : List (String × String) :=
  [("version", version),
    ("headers", " ".intercalate authorization.names),
    ("keyId", authorization.keyId),
    ("algorithm", algorithm),
    ("signature", (Base64.encode authorization.signature).toStringLossy)]

/-- Nothing is escaped between the quotation marks. -/
def text (authorization : Authorization) : String :=
  scheme ++ ",".intercalate (authorization.parameters.map fun (name, value) =>
    name ++ "=\"" ++ value ++ "\"")

/-- Parameters as they are read: a value ends at the next quotation mark, and a comma stands
before another parameter. At most `limit` parameters are read. -/
def readParameters : (limit : Nat) → List Char → Option (List (String × String))
  | 0, _ => none
  | limit + 1, chars =>
    let name := String.ofList (chars.takeWhile (· ≠ '='))
    match chars.dropWhile (· ≠ '=') with
    | '=' :: '"' :: rest =>
      let value := String.ofList (rest.takeWhile (· ≠ '"'))
      match rest.dropWhile (· ≠ '"') with
      | ['"'] => some [(name, value)]
      | '"' :: ',' :: rest => (readParameters limit rest).map ((name, value) :: ·)
      | _ => none
    | _ => none

/-- The parameters of a header's text. -/
def parse? (text : String) : Option (List (String × String)) :=
  if scheme.toList <+: text.toList then
    readParameters text.length (text.toList.drop scheme.length)
  else none

end Authorization

end RequestSigning.Signing
