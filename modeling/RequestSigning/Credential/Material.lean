import RequestSigning.Credential.Reading
import RequestSigning.Error
set_option autoImplicit false

namespace RequestSigning.Credential

/-- A value together with the bytes from which it was read. -/
structure Loaded (α : Type) where
  pem : Bytes
  value : α
  deriving Repr, DecidableEq

namespace Loaded

def certificate (pem : Bytes) : Except Error (Loaded Certificate) :=
  ((readCertificate pem).mapError .credential).map fun value => ⟨pem, value⟩

def privateKey (pem : Bytes) (passphrase : Option Bytes) :
    Except Error (Loaded Rsa.PrivateKey) :=
  ((readPrivateKey pem passphrase).mapError .credential).map fun value => ⟨pem, value⟩

/-- A loaded key as it is shown to a developer, with nothing secret in it. -/
def debugText (key : Loaded Rsa.PrivateKey) : String :=
  "LoadedPrivateKey \x7b pem_len: " ++ toString key.pem.length ++ ", .. \x7d"

end Loaded

/-- What one refresh has loaded. -/
structure Material where
  certificate : Option (Loaded Certificate)
  privateKey : Option (Loaded Rsa.PrivateKey)
  deriving Repr, DecidableEq

namespace Material

def empty : Material := ⟨none, none⟩

def isEmpty (material : Material) : Bool :=
  material.certificate.isNone && material.privateKey.isNone

end Material

end RequestSigning.Credential
