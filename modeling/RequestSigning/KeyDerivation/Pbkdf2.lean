import RequestSigning.Digest.Hmac
set_option autoImplicit false

namespace RequestSigning.KeyDerivation

/-- `count` more rounds: the latest digest, and the exclusive or of all so far. -/
def pbkdf2Rounds (hash : HashFunction) (password : Bytes) :
    (count : Nat) → (latest sum : Bytes) → Bytes
  | 0, _, sum => sum
  | count + 1, latest, sum =>
    let latest := hash.mac password latest
    pbkdf2Rounds hash password count latest (Bytes.xor sum latest)

def pbkdf2Block (hash : HashFunction) (password salt : Bytes) (iterations index : Nat) : Bytes :=
  let start := hash.mac password (salt ++ Bytes.ofNat 4 index)
  pbkdf2Rounds hash password (iterations - 1) start start

/-- PBKDF2. No iterations count as one. -/
def pbkdf2 (hash : HashFunction) (password salt : Bytes) (iterations length : Nat) : Bytes :=
  ((List.range' 1 ((length + hash.size - 1) / hash.size)).flatMap
    (pbkdf2Block hash password salt iterations)).take length

end RequestSigning.KeyDerivation
