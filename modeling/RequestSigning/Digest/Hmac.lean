import RequestSigning.Digest.Sha256
import RequestSigning.Digest.Sha512
set_option autoImplicit false

namespace RequestSigning

/-- A digest that a keyed digest can be built from. -/
inductive HashFunction where
  | sha224
  | sha256
  | sha384
  | sha512
  deriving Repr, DecidableEq

namespace HashFunction

def digest : HashFunction → Bytes → Bytes
  | .sha224 => Sha256.digest224
  | .sha256 => Sha256.digest
  | .sha384 => Sha512.digest384
  | .sha512 => Sha512.digest

def blockSize : HashFunction → Nat
  | .sha224 => 64
  | .sha256 => 64
  | .sha384 => 128
  | .sha512 => 128

/-- How many bytes a digest has. -/
def size : HashFunction → Nat
  | .sha224 => 28
  | .sha256 => 32
  | .sha384 => 48
  | .sha512 => 64

/-- The key filled up to a block; a longer one is digested first. -/
def blockKey (hash : HashFunction) (key : Bytes) : Bytes :=
  let key := if hash.blockSize < key.length then hash.digest key else key
  key ++ List.replicate (hash.blockSize - key.length) 0

/-- HMAC. -/
def mac (hash : HashFunction) (key message : Bytes) : Bytes :=
  let key := hash.blockKey key
  hash.digest (key.map (· ^^^ 0x5C) ++ hash.digest (key.map (· ^^^ 0x36) ++ message))

end HashFunction

end RequestSigning
