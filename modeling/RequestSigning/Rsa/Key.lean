import RequestSigning.Bytes
set_option autoImplicit false

namespace RequestSigning.Rsa

structure PublicKey where
  modulus : Nat
  exponent : Nat
  deriving Repr, DecidableEq

/-- The greatest exponent that a public key may have, 2³³ - 1. -/
def maxExponent : Nat := 0x1FFFFFFFF

/-- The numbers of a private key with two prime factors. -/
structure KeyNumbers where
  modulus : Nat
  publicExponent : Nat
  privateExponent : Nat
  p : Nat
  q : Nat
  deriving Repr, DecidableEq

namespace PublicKey

/-- How many bytes the modulus has, and every signature with it. -/
def size (key : PublicKey) : Nat :=
  Bytes.width key.modulus

end PublicKey

namespace KeyNumbers

/-- What is asked of a key before it is used. Whether the factors are prime is not. -/
structure IsValid (numbers : KeyNumbers) : Prop where
  modulus_odd : numbers.modulus % 2 = 1
  exponent_odd : numbers.publicExponent % 2 = 1
  two_le_exponent : 2 ≤ numbers.publicExponent
  exponent_le : numbers.publicExponent ≤ maxExponent
  exponent_lt_modulus : numbers.publicExponent < numbers.modulus
  one_lt_p : 1 < numbers.p
  one_lt_q : 1 < numbers.q
  factors : numbers.p * numbers.q = numbers.modulus
  inverse_p : numbers.publicExponent * numbers.privateExponent % (numbers.p - 1) = 1
  inverse_q : numbers.publicExponent * numbers.privateExponent % (numbers.q - 1) = 1

theorem isValid_iff (numbers : KeyNumbers) :
    numbers.IsValid ↔
      numbers.modulus % 2 = 1 ∧ numbers.publicExponent % 2 = 1 ∧ 2 ≤ numbers.publicExponent ∧
      numbers.publicExponent ≤ maxExponent ∧ numbers.publicExponent < numbers.modulus ∧
      1 < numbers.p ∧ 1 < numbers.q ∧ numbers.p * numbers.q = numbers.modulus ∧
      numbers.publicExponent * numbers.privateExponent % (numbers.p - 1) = 1 ∧
      numbers.publicExponent * numbers.privateExponent % (numbers.q - 1) = 1 :=
  ⟨fun ⟨a, b, c, d, e, f, g, h, i, j⟩ => ⟨a, b, c, d, e, f, g, h, i, j⟩,
    fun ⟨a, b, c, d, e, f, g, h, i, j⟩ => ⟨a, b, c, d, e, f, g, h, i, j⟩⟩

instance (numbers : KeyNumbers) : Decidable numbers.IsValid :=
  decidable_of_iff' _ numbers.isValid_iff

end KeyNumbers

/-- A private key that was found valid. -/
structure PrivateKey extends KeyNumbers where
  valid : toKeyNumbers.IsValid
  deriving Repr, DecidableEq

namespace PrivateKey

def publicKey (key : PrivateKey) : PublicKey :=
  ⟨key.modulus, key.publicExponent⟩

def size (key : PrivateKey) : Nat :=
  key.publicKey.size

end PrivateKey

end RequestSigning.Rsa
