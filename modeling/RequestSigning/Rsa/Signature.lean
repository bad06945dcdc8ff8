import RequestSigning.Digest.Sha256
import RequestSigning.Rsa.Arithmetic
import RequestSigning.Rsa.Key
set_option autoImplicit false

namespace RequestSigning.Rsa

inductive SigningFault where
  | messageTooLong
  | invalidPaddingScheme
  | invalidModulus
  | internal
  deriving Repr, DecidableEq

def SigningFault.message : SigningFault → String
  | .messageTooLong => "message too long"
  | .invalidPaddingScheme => "invalid padding scheme"
  | .invalidModulus => "invalid modulus"
  | .internal => "internal error"

/-- The DER of a SHA-256 digest with its algorithm, as far as the digest. -/
def digestInfo : Bytes :=
  [0x30, 0x31, 0x30, 0x0d, 0x06, 0x09, 0x60, 0x86, 0x48, 0x01, 0x65, 0x03, 0x04, 0x02, 0x01, 0x05,
    0x00, 0x04, 0x20]

/-- EMSA-PKCS1-v1_5 of a SHA-256 digest, in `size` bytes; at least eight of them are filling. -/
def encodeDigest? (size : Nat) (digest : Bytes) : Option Bytes :=
  let tail := digestInfo ++ digest
  if tail.length + 11 ≤ size then
    some (0x00 :: 0x01 :: List.replicate (size - tail.length - 3) 0xFF ++ 0x00 :: tail)
  else none

/-- The private operation: through the two factors, where the second has an inverse modulo
the first, and otherwise with the private exponent itself. -/
def PrivateKey.power (key : PrivateKey) (c : Nat) : Nat :=
  match inverse? key.q key.p with
  | some inverse =>
    let m := powMod c (key.privateExponent % (key.p - 1)) key.p
    let k := powMod c (key.privateExponent % (key.q - 1)) key.q
    (m + key.p - k % key.p) * inverse % key.p * key.q + k
  | none => powMod c key.privateExponent key.modulus

/-- A signature that the public key does not confirm is not given out. -/
def PrivateKey.signDigest (key : PrivateKey) (digest : Bytes) : Except SigningFault Bytes :=
  match encodeDigest? key.size digest with
  | none => .error .messageTooLong
  | some encoded =>
    let c := Bytes.toNat encoded
    let s := key.power c
    if powMod s key.publicExponent key.modulus = c then .ok (Bytes.ofNat key.size s)
    else .error .internal

/-- RSASSA-PKCS1-v1_5 with SHA-256. -/
def PrivateKey.sign (key : PrivateKey) (message : Bytes) : Except SigningFault Bytes :=
  key.signDigest (Sha256.digest message)

/-- RSASSA-PKCS1-v1_5 verification with SHA-256. -/
def PublicKey.verify (key : PublicKey) (message signature : Bytes) : Bool :=
  let s := Bytes.toNat signature
  signature.length = key.size && s < key.modulus &&
    encodeDigest? key.size (Sha256.digest message) =
      some (Bytes.ofNat key.size (powMod s key.exponent key.modulus))

end RequestSigning.Rsa
