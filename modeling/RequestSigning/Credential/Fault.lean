import RequestSigning.Pem
import RequestSigning.Text.Hex
set_option autoImplicit false

namespace RequestSigning.Credential

inductive Kind where
  | certificate
  | privateKey
  deriving Repr, DecidableEq

def Kind.text : Kind → String
  | .certificate => "certificate"
  | .privateKey => "private key"

/-- Why bytes are not a certificate or a private key. -/
inductive Fault where
  | empty (kind : Kind)
  | invalidPem (kind : Kind) (fault : Pem.Fault)
  | notACertificate (tag : String)
  | invalidCertificate
  | invalidPkcs1
  | invalidPkcs8
  | undecryptablePkcs8
  | unsupportedBlock (tag : String)
  | missingPassphrase
  | missingCipherInfo
  | malformedCipherInfo (info : String)
  | unsupportedCipher (name : String)
  | malformedIv (fault : Hex.Fault)
  | wrongIvLength (cipher : String) (expected actual : Nat)
  /-- A cipher was given a key or an initial vector of another length than its own. -/
  | invalidLength
  | wrongPassphrase
  /-- Words of a caller's own. -/
  | described (text : String)
  deriving Repr, DecidableEq

def Fault.message : Fault → String
  | .empty kind => s!"{kind.text} PEM is empty"
  | .invalidPem kind fault => s!"invalid {kind.text} PEM: {fault.message}"
  | .notACertificate tag => s!"expected CERTIFICATE block, found {tag}"
  | .invalidCertificate => "invalid X.509 certificate"
  | .invalidPkcs1 => "invalid PKCS#1 private key"
  | .invalidPkcs8 => "invalid PKCS#8 private key"
  | .undecryptablePkcs8 => "can not decrypt PKCS#8 private key"
  | .unsupportedBlock tag => s!"unsupported private key block {tag}"
  | .missingPassphrase => "private key is encrypted but no passphrase was configured"
  | .missingCipherInfo => "encrypted private key is missing DEK-Info"
  | .malformedCipherInfo info => s!"malformed DEK-Info: {info}"
  | .unsupportedCipher name => s!"unsupported private key cipher {name}"
  | .malformedIv fault => s!"malformed DEK-Info IV: {fault.message}"
  | .wrongIvLength cipher expected actual =>
    s!"DEK-Info IV for {cipher} must be {expected} bytes, got {actual}"
  | .invalidLength => "Invalid Length"
  | .wrongPassphrase => "can not decrypt private key, wrong passphrase?"
  | .described text => text

end RequestSigning.Credential
