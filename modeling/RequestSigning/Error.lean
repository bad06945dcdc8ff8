import RequestSigning.Credential.Fault
import RequestSigning.Http.Status
import RequestSigning.Rsa.Signature
set_option autoImplicit false

namespace RequestSigning

/-- Why there is no key to sign with. -/
inductive KeyFault where
  | noProvider
  | noPrivateKey
  | noCertificate
  /-- Words of a provider's own. -/
  | described (text : String)
  deriving Repr, DecidableEq

def KeyFault.message : KeyFault → String
  | .noProvider => "signer has no key provider"
  | .noPrivateKey => "no private key has been loaded"
  | .noCertificate => "no certificate has been loaded"
  | .described text => text

inductive Error where
  | transport (url cause : String)
  | unexpectedStatus (url : String) (status : Http.Status)
  | credential (fault : Credential.Fault)
  | keyUnavailable (fault : KeyFault)
  | signing (fault : Rsa.SigningFault)
  | bodyRead (text : String)
  | invalidHeader (text : String)
  deriving Repr, DecidableEq

namespace Error

def message : Error → String
  | transport url cause => s!"Failed to fetch {url}: {cause}"
  | unexpectedStatus url status => s!"Unexpected status {status.text} fetching {url}"
  | credential fault => s!"Failed to parse credential material: {fault.message}"
  | keyUnavailable fault => s!"Signing key unavailable: {fault.message}"
  | signing fault => s!"Can not compute signature while signing the request: {fault.message}"
  | bodyRead text => s!"Can not read body of request while calculating body hash: {text}"
  | invalidHeader text => s!"Invalid header value: {text}"

/-- The error underneath, where one is kept. -/
def source? : Error → Option String
  | transport _ cause => some cause
  | signing fault => some fault.message
  | _ => none

/-- Whether the same may succeed later. -/
def isTransient : Error → Bool
  | transport .. => true
  | unexpectedStatus _ status =>
    status.isServerError || status.code == Http.Status.tooManyRequests
  | _ => false

/-- What is said of bytes that no header value may have. -/
def headerValueText : String := "failed to parse header value"

end Error

end RequestSigning
