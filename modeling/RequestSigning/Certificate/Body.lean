import RequestSigning.Certificate.Extension
import RequestSigning.Certificate.Name
import RequestSigning.Der.Time
set_option autoImplicit false

namespace RequestSigning.Certificate

open Der

inductive Version where
  | v1
  | v2
  | v3
  deriving Repr, DecidableEq

/-- The number that stands for a version in the encoding. -/
def Version.number : Version → Nat
  | .v1 => 0
  | .v2 => 1
  | .v3 => 2

def Version.read : Reader Version := do
  match ← Reader.unsigned 1 with
  | 0 => return .v1
  | 1 => return .v2
  | 2 => return .v3
  | _ => failure

structure Validity where
  notBefore : Time
  notAfter : Time
  deriving Repr, DecidableEq

def Validity.encode (validity : Validity) : Bytes :=
  encodeSequence [validity.notBefore.encode, validity.notAfter.encode]

def Validity.read : Reader Validity :=
  Reader.nested Tag.sequence do return ⟨← Time.read, ← Time.read⟩

structure PublicKeyInfo where
  algorithm : Algorithm
  key : BitString
  deriving Repr, DecidableEq

def PublicKeyInfo.encode (info : PublicKeyInfo) : Bytes :=
  encodeSequence [info.algorithm.encode, encodeBitString Tag.bitString info.key]

def PublicKeyInfo.read : Reader PublicKeyInfo :=
  Reader.nested Tag.sequence do return ⟨← Algorithm.read, ← Reader.bitString⟩

/-- The longest serial number that is read, in bytes. -/
def maxSerialLength : Nat := 21

def readSerial : Reader Bytes := do
  let serial ← Reader.content Tag.integer
  if isShortestInteger serial ∧ serial.length ≤ maxSerialLength then return serial else failure

/-- What the issuer signs. The serial number is the content of its INTEGER. -/
structure Body where
  version : Version
  serial : Bytes
  signature : Algorithm
  issuer : Name
  validity : Validity
  subject : Name
  subjectKey : PublicKeyInfo
  issuerUniqueId : Option BitString
  subjectUniqueId : Option BitString
  extensions : Option (List Extension)
  deriving Repr, DecidableEq

/-- The first version is the default, and is left out. -/
def Body.encode (body : Body) : Bytes :=
  encodeSequence [
    if body.version = .v1 then []
    else Element.encode ⟨Tag.explicit 0, encodeUnsigned body.version.number⟩,
    Element.encode ⟨Tag.integer, body.serial⟩,
    body.signature.encode,
    Name.encode body.issuer,
    body.validity.encode,
    Name.encode body.subject,
    body.subjectKey.encode,
    (body.issuerUniqueId.map (encodeBitString (Tag.implicit 1))).getD [],
    (body.subjectUniqueId.map (encodeBitString (Tag.implicit 2))).getD [],
    (body.extensions.map fun list => Element.encode ⟨Tag.explicit 3, encodeExtensions list⟩).getD []]

def Body.read : Reader Body :=
  Reader.nested Tag.sequence do
    let version := (← Reader.explicit 0 Version.read).getD .v1
    let serial ← readSerial
    let signature ← Algorithm.read
    let issuer ← Name.read
    let validity ← Validity.read
    let subject ← Name.read
    let subjectKey ← PublicKeyInfo.read
    let issuerUniqueId ← Reader.implicitBitString 1
    let subjectUniqueId ← Reader.implicitBitString 2
    let extensions ← Reader.explicit 3 readExtensions
    return { version, serial, signature, issuer, validity, subject, subjectKey, issuerUniqueId,
             subjectUniqueId, extensions }

end RequestSigning.Certificate
