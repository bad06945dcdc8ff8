import RequestSigning.Digest.Md5
set_option autoImplicit false

namespace RequestSigning.KeyDerivation

/-- The next link of the chain: the digest of the one before, the passphrase and the salt. -/
def nextLink (passphrase salt previous : Bytes) : Bytes :=
  Md5.digest (previous ++ passphrase ++ salt)

/-- The links made so far, one after another, and the last of them. -/
structure Chain where
  bytes : Bytes
  last : Bytes
  deriving Repr, DecidableEq

namespace Chain

def empty : Chain :=
  ⟨[], []⟩

/-- One more link. -/
def extend (passphrase salt : Bytes) (chain : Chain) : Chain :=
  let link := nextLink passphrase salt chain.last
  ⟨chain.bytes ++ link, link⟩

theorem length_extend (passphrase salt : Bytes) (chain : Chain) :
    (chain.extend passphrase salt).bytes.length = chain.bytes.length + 16 := by
  rw [extend, List.length_append, nextLink, Md5.length_digest]

/-- Adds links as long as there are fewer than `length` bytes. -/
def extendTo (passphrase salt : Bytes) (length : Nat) (chain : Chain) : Chain :=
  if chain.bytes.length < length then
    extendTo passphrase salt length (chain.extend passphrase salt)
  else chain
termination_by length - chain.bytes.length
decreasing_by
  rw [length_extend]
  omega

end Chain

/-- A key of `length` bytes from a chain of MD5 digests that begins with nothing. -/
def chained (passphrase salt : Bytes) (length : Nat) : Bytes :=
  (Chain.empty.extendTo passphrase salt length).bytes.take length

end RequestSigning.KeyDerivation
