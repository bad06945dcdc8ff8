import RequestSigning.Error
import RequestSigning.Http.Uri
set_option autoImplicit false

namespace RequestSigning

/-- The answer to a GET, read to its end. -/
structure Response where
  status : Http.Status
  body : Bytes
  deriving Repr, DecidableEq

/-- Answers GETs one after another; each answer may depend on those before it. -/
abbrev Transport (σ : Type) := (url : String) → StateM σ (Except Error Response)

/-- A client's settings. -/
structure Client where
  timeoutMillis : Nat := 10000
  deriving Repr, DecidableEq

namespace Client

def withTimeout (client : Client) (millis : Nat) : Client :=
  { client with timeoutMillis := millis }

/-- What is said of an address without a scheme. -/
def absoluteUriText : String := "client error (UserAbsoluteUriRequired)"

/-- What is said where no connection can be made. -/
def connectText : String := "client error (Connect)"

/-- Why a GET of the address fails where nothing can be connected to. -/
def failure (url : String) : Error :=
  .transport url <|
    match Http.Uri.parse (Bytes.ofString url) with
    | .error fault => fault.message
    | .ok uri => if uri.hasScheme then connectText else absoluteUriText

/-- The transport of a client without a network. -/
def offline : Transport Unit := fun url =>
  return .error (failure url)

end Client

end RequestSigning
