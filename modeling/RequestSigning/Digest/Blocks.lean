import RequestSigning.Bytes
set_option autoImplicit false

namespace RequestSigning.Digest

/-- How many zero bytes fill the last block between the end mark and the length. -/
def zeros (block field size : Nat) : Nat :=
  (block - (size + 1 + field) % block) % block

/-- The message, an end mark, zeros and the message's length, in whole blocks. -/
def pad (block : Nat) (lengthField : Bytes) (message : Bytes) : Bytes :=
  message ++ 0x80 :: List.replicate (zeros block lengthField.length message.length) 0 ++ lengthField

/-- The greatest number whose power is at most `n`, of the bits below `bits`. -/
def root (power n bits : Nat) : Nat :=
  (List.range bits).foldr
    (fun bit low => if Nat.pow (low + (1 <<< bit)) power ≤ n then low + (1 <<< bit) else low) 0

/-- The first `bits` bits of the fraction of a root of `n`. -/
def rootFraction (power bits n : Nat) : Nat :=
  root power (n <<< (power * bits)) (bits + 10) % (1 <<< bits)

def isPrime (n : Nat) : Bool :=
  2 ≤ n && (List.range n).all fun d => d < 2 || n % d ≠ 0

/-- The primes up to 409, which are eighty. -/
def primes : List Nat :=
  (List.range 410).filter isPrime

end RequestSigning.Digest
