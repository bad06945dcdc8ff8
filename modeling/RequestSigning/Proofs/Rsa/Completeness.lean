import RequestSigning.Proofs.Rsa.Signature
set_option autoImplicit false

namespace RequestSigning.Rsa

section Inverse

/-- What Euclid's algorithm ends with is a multiple of `a` up to multiples of `m`, as the two
numbers are that it begins with. -/
theorem euclid_modEq {a : Nat} {m : Int} (limit r s : Nat) (x y : Int) (first : x * a ≡ r [ZMOD m])
    (second : y * a ≡ s [ZMOD m]) :
    (euclid limit r s x y).2 * a ≡ (euclid limit r s x y).1 [ZMOD m] := by
  induction limit generalizing r s x y with
  | zero => exact first
  | succ limit ih =>
    rw [euclid]
    split
    · exact first
    · apply ih _ _ _ _ second
      have remainder : ((r % s : Nat) : Int) = r - (r / s : Nat) * s := by
        rw [Int.natCast_mod, Int.natCast_div, Int.emod_def, Int.mul_comm]
      have multiple : (x - (r / s : Nat) * y) * a = x * a - (r / s : Nat) * (y * a) := by ring
      rw [remainder, multiple]
      exact first.sub (second.mul_left _)

theorem inverse?_modEq {a m inverse : Nat} (m_pos : 0 < m) (found : inverse? a m = some inverse) :
    inverse * a ≡ 1 [MOD m] := by
  have start : (0 : Int) * a ≡ (m : Nat) [ZMOD m] := by
    rw [Int.zero_mul]
    exact (Int.modEq_zero_iff_dvd.mpr (dvd_refl _)).symm
  have reduced : (1 : Int) * a ≡ (a % m : Nat) [ZMOD m] := by
    rw [Int.one_mul, Int.natCast_mod]
    exact (Int.mod_modEq _ _).symm
  have ended := euclid_modEq (2 * m.log2 + 3) m (a % m) 0 1 start reduced
  rw [inverse?] at found
  dsimp only at found
  split at found
  · rename_i coprime
    rw [coprime] at ended
    obtain rfl := Option.some.inj found
    have nonneg := Int.emod_nonneg (euclid (2 * m.log2 + 3) m (a % m) 0 1).2
      (Int.natCast_ne_zero.mpr (Nat.pos_iff_ne_zero.mp m_pos))
    apply Int.natCast_modEq_iff.mp
    rw [Int.natCast_mul, Int.toNat_of_nonneg nonneg]
    exact ((Int.mod_modEq _ _).mul_right _).trans ended
  · cases found

end Inverse

section Exponents

variable {p : Nat} [prime : Fact p.Prime]

/-- Exponents count up to multiples of one less than the prime. -/
theorem pow_eq_self_of_mod {e : Nat} (one : e % (p - 1) = 1) (c : ZMod p) : c ^ e = c := by
  have parts : e = 1 + (p - 1) * (e / (p - 1)) := by
    have whole := Nat.mod_add_div e (p - 1)
    omega
  rw [parts, pow_add, pow_one, pow_mul]
  by_cases zero : c = 0
  · rw [zero, zero_mul]
  · rw [ZMod.pow_card_sub_one_eq_one zero, one_pow, mul_one]

theorem pow_pow_eq_self {d e : Nat} (inverse : e * d % (p - 1) = 1) (c : ZMod p) :
    (c ^ d) ^ e = c := by
  rw [← pow_mul, Nat.mul_comm]
  exact pow_eq_self_of_mod inverse c

end Exponents

namespace PrivateKey

section TwoPrimes

variable (key : PrivateKey)

/-- The private operation raises to a power that the public exponent undoes, modulo `r`. -/
def UndoneModulo (key : PrivateKey) (c r : Nat) : Prop :=
  ∃ d, key.publicExponent * d % (r - 1) = 1 ∧ (key.power c : ZMod r) = (c : ZMod r) ^ d

theorem mul_mod_mod {e d r : Nat} (inverse : e * d % (r - 1) = 1) :
    e * (d % (r - 1)) % (r - 1) = 1 := by
  rw [Nat.mul_mod_mod, inverse]

theorem cast_powMod_of_dvd {r m : Nat} (divides : r ∣ m) (c d : Nat) :
    (powMod c d m : ZMod r) = (c : ZMod r) ^ d := by
  rw [powMod_eq, ← Nat.cast_pow]
  exact (ZMod.natCast_eq_natCast_iff _ _ _).mpr ((Nat.mod_modEq (c ^ d) m).of_dvd divides)

/-- The two remainders make up a number that leaves both of them. -/
theorem cast_combined {p q inverse m k : Nat} (inverts : inverse * q ≡ 1 [MOD p]) (p_pos : 0 < p) :
    (((m + p - k % p) * inverse % p * q + k : Nat) : ZMod p) = m ∧
      (((m + p - k % p) * inverse % p * q + k : Nat) : ZMod q) = k := by
  constructor
  · have small : k % p ≤ m + p := Nat.le_trans (Nat.mod_lt k p_pos).le (Nat.le_add_left p m)
    have unit : (inverse : ZMod p) * q = 1 := by
      rw [← Nat.cast_mul, ← Nat.cast_one]
      exact (ZMod.natCast_eq_natCast_iff _ _ _).mpr inverts
    rw [Nat.cast_add, Nat.cast_mul, ZMod.natCast_mod, Nat.cast_mul, Nat.cast_sub small,
      Nat.cast_add, ZMod.natCast_self, add_zero, ZMod.natCast_mod, mul_assoc, unit, mul_one,
      sub_add_cancel]
  · rw [Nat.cast_add, Nat.cast_mul, ZMod.natCast_self, mul_zero, zero_add]

theorem undoneModulo_factors (c : Nat) : key.UndoneModulo c key.p ∧ key.UndoneModulo c key.q := by
  have valid := key.valid
  have p_pos : 0 < key.p := Nat.zero_lt_of_lt valid.one_lt_p
  rw [UndoneModulo, UndoneModulo, power]
  split
  · rename_i inverse found
    have combined := fun m k => @cast_combined _ _ _ m k (inverse?_modEq p_pos found) p_pos
    refine ⟨⟨_, mul_mod_mod valid.inverse_p, ?_⟩, ⟨_, mul_mod_mod valid.inverse_q, ?_⟩⟩
    · rw [(combined _ _).1, cast_powMod_of_dvd (dvd_refl _)]
    · rw [(combined _ _).2, cast_powMod_of_dvd (dvd_refl _)]
  · have p_divides : key.p ∣ key.modulus := ⟨key.q, valid.factors.symm⟩
    have q_divides : key.q ∣ key.modulus := ⟨key.p, by rw [Nat.mul_comm, valid.factors]⟩
    exact ⟨⟨_, valid.inverse_p, cast_powMod_of_dvd p_divides _ _⟩,
      ⟨_, valid.inverse_q, cast_powMod_of_dvd q_divides _ _⟩⟩

variable {key}

theorem UndoneModulo.pow_eq {c r : Nat} (undone : key.UndoneModulo c r) (prime : r.Prime) :
    key.power c ^ key.publicExponent ≡ c [MOD r] := by
  obtain ⟨d, inverse, raised⟩ := undone
  have : Fact r.Prime := ⟨prime⟩
  apply (ZMod.natCast_eq_natCast_iff _ _ _).mp
  rw [Nat.cast_pow, raised]
  exact pow_pow_eq_self inverse _

/-- Where the factors are distinct primes, the public operation undoes the private one. -/
theorem powMod_power (p_prime : key.p.Prime) (q_prime : key.q.Prime) (distinct : key.p ≠ key.q)
    {c : Nat} (below : c < key.modulus) :
    powMod (key.power c) key.publicExponent key.modulus = c := by
  obtain ⟨first, second⟩ := key.undoneModulo_factors c
  have coprime : key.p.Coprime key.q := (Nat.coprime_primes p_prime q_prime).mpr distinct
  have both := (Nat.modEq_and_modEq_iff_modEq_mul coprime).mp
    ⟨first.pow_eq p_prime, second.pow_eq q_prime⟩
  rw [key.valid.factors] at both
  rw [powMod_eq, both, Nat.mod_eq_of_lt below]

theorem pow_size_le (key : PrivateKey) : 256 ^ (key.size - 1) ≤ key.modulus := by
  have nonzero : key.modulus ≠ 0 := Nat.pos_iff_ne_zero.mp key.modulus_pos
  have size : key.size = key.modulus.log2 / 8 + 1 := if_neg nonzero
  calc
    256 ^ (key.size - 1) = 2 ^ (8 * (key.modulus.log2 / 8)) := by
      rw [size, Nat.add_sub_cancel, Nat.pow_mul]
    _ ≤ 2 ^ key.modulus.log2 := Nat.pow_le_pow_right (by decide) (Nat.mul_div_le _ _)
    _ ≤ key.modulus := Nat.log2_self_le nonzero

/-- Encoded digests are numbers below the modulus, as their first byte is zero. -/
theorem toNat_lt_of_encodeDigest? {digest encoded : Bytes}
    (fits : encodeDigest? key.size digest = some encoded) : Bytes.toNat encoded < key.modulus := by
  have length := length_of_encodeDigest? fits
  obtain ⟨rest, rfl⟩ : ∃ rest, encoded = 0 :: rest := by
    rw [encodeDigest?] at fits
    split at fits
    · exact ⟨_, (Option.some.inj fits).symm⟩
    · cases fits
  have number : Bytes.toNat (0 :: rest) = Bytes.toNat rest := rfl
  have size : rest.length = key.size - 1 := by
    rw [← length, List.length_cons, Nat.add_sub_cancel]
  calc
    Bytes.toNat (0 :: rest) < 256 ^ (key.size - 1) := by
      rw [number, ← size]
      exact Bytes.toNat_lt rest
    _ ≤ key.modulus := key.pow_size_le

/-- A key of two distinct primes that is large enough signs every message. -/
theorem sign_eq (p_prime : key.p.Prime) (q_prime : key.q.Prime) (distinct : key.p ≠ key.q)
    (large : 62 ≤ key.size) (message : Bytes) :
    key.sign message = .ok (Bytes.ofNat key.size
      (key.power (Bytes.toNat (paddedDigest key.size (Sha256.digest message))))) := by
  have fits := encodeDigest?_of_le (Sha256.length_digest message) large
  have undone := powMod_power p_prime q_prime distinct (toNat_lt_of_encodeDigest? fits)
  rw [sign, signDigest, fits]
  exact if_pos undone

theorem exists_sign (p_prime : key.p.Prime) (q_prime : key.q.Prime) (distinct : key.p ≠ key.q)
    (large : 62 ≤ key.size) (message : Bytes) : ∃ signature, key.sign message = .ok signature :=
  ⟨_, sign_eq p_prime q_prime distinct large message⟩

/-- The public exponent takes a signature back to the padded digest. -/
theorem pow_of_sign {message signature : Bytes} (large : 62 ≤ key.size)
    (signed : key.sign message = .ok signature) :
    Bytes.ofNat key.size (Bytes.toNat signature ^ key.publicExponent % key.modulus) =
      paddedDigest key.size (Sha256.digest message) := by
  have verified := key.verify_of_sign signed
  simp only [PublicKey.verify, Bool.and_eq_true, decide_eq_true_eq] at verified
  have encoded := verified.2
  rw [powMod_eq] at encoded
  exact Option.some.inj
    (encoded.symm.trans (encodeDigest?_of_le (Sha256.length_digest message) large))

theorem sign_of_lt (small : key.size < 62) (message : Bytes) :
    key.sign message = .error .messageTooLong := by
  rw [sign, signDigest, encodeDigest?_of_lt (Sha256.length_digest message) small]

end TwoPrimes

end PrivateKey

end RequestSigning.Rsa
