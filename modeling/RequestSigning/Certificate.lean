import RequestSigning.Certificate.Body
set_option autoImplicit false

namespace RequestSigning

/-- An X.509 certificate. Nothing in it is verified. -/
structure Certificate where
  body : Certificate.Body
  signatureAlgorithm : Der.Algorithm
  signature : Der.BitString
  deriving Repr, DecidableEq

namespace Certificate

open Der

def encode (certificate : Certificate) : Bytes :=
  encodeSequence [certificate.body.encode, certificate.signatureAlgorithm.encode,
    encodeBitString Tag.bitString certificate.signature]

def read : Reader Certificate :=
  Reader.nested Tag.sequence do return ⟨← Body.read, ← Algorithm.read, ← Reader.bitString⟩

def ofDer? (bytes : Bytes) : Option Certificate :=
  read.ofInput bytes

/-- The last moment at which the certificate is valid. -/
def expiration (certificate : Certificate) : UnixTime :=
  certificate.body.validity.notAfter.moment.toUnixTime

end Certificate

end RequestSigning
