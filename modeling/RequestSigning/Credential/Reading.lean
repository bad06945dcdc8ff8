import RequestSigning.Certificate
import RequestSigning.Credential.LegacyEncryption
import RequestSigning.Credential.PasswordEncryption
import RequestSigning.Rsa.Encoding
set_option autoImplicit false

namespace RequestSigning.Credential

def certificateTag : String := "CERTIFICATE"

/-- The numbers of a key alone. -/
def pkcs1Tag : String := "RSA PRIVATE KEY"

/-- A key in a container that names its algorithm. -/
def pkcs8Tag : String := "PRIVATE KEY"

def encryptedPkcs8Tag : String := "ENCRYPTED PRIVATE KEY"

/-- The first block; what follows it is not looked at. -/
def readBlock (kind : Kind) (input : Bytes) : Except Fault Pem :=
  if input.all Blank.isAsciiBlank then .error (.empty kind)
  else (Pem.parse input).mapError (.invalidPem kind)

def readCertificate (input : Bytes) : Except Fault Certificate := do
  let block ← readBlock .certificate input
  if block.tag ≠ certificateTag then throw (.notACertificate block.tag)
  match Certificate.ofDer? block.contents with
  | some certificate => return certificate
  | none => throw .invalidCertificate

/-- An empty passphrase counts as none. -/
def requirePassphrase : Option Bytes → Except Fault Bytes
  | some (b :: rest) => .ok (b :: rest)
  | _ => .error .missingPassphrase

def readPkcs1 (block : Pem) (passphrase : Option Bytes) : Except Fault Rsa.PrivateKey := do
  let contents ←
    if LegacyEncryption.isEncrypted block then
      LegacyEncryption.decrypt block (← requirePassphrase passphrase)
    else pure block.contents
  match Rsa.PrivateKey.ofPkcs1? contents with
  | some key => return key
  | none => throw .invalidPkcs1

def readPkcs8 (block : Pem) : Except Fault Rsa.PrivateKey :=
  match Rsa.PrivateKey.ofPkcs8? block.contents with
  | some key => .ok key
  | none => .error .invalidPkcs8

def readEncryptedPkcs8 (block : Pem) (passphrase : Option Bytes) :
    Except Fault Rsa.PrivateKey := do
  let passphrase ← requirePassphrase passphrase
  match (PasswordEncryption.decrypt? block.contents passphrase).bind Rsa.PrivateKey.ofPkcs8? with
  | some key => return key
  | none => throw .undecryptablePkcs8

/-- The passphrase is looked at only where the block is encrypted. -/
def readPrivateKey (input : Bytes) (passphrase : Option Bytes) : Except Fault Rsa.PrivateKey := do
  let block ← readBlock .privateKey input
  if block.tag = pkcs1Tag then readPkcs1 block passphrase
  else if block.tag = pkcs8Tag then readPkcs8 block
  else if block.tag = encryptedPkcs8Tag then readEncryptedPkcs8 block passphrase
  else throw (.unsupportedBlock block.tag)

end RequestSigning.Credential
