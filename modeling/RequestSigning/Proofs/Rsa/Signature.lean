import RequestSigning.Proofs.Bytes
import RequestSigning.Rsa.Signature
set_option autoImplicit false

namespace RequestSigning.Rsa

theorem powModWithin_eq (m limit b e : Nat) (enough : e < 2 ^ limit) :
    powModWithin m limit b e = b ^ e % m := by
  induction limit generalizing b e with
  | zero =>
    have : e = 0 := by simpa using enough
    subst this
    rfl
  | succ limit ih =>
    by_cases zero : e = 0
    · rw [powModWithin, if_pos zero, zero, Nat.pow_zero]
    · have fewer : e / 2 < 2 ^ limit := by
        rw [Nat.pow_succ] at enough
        omega
      have half : powModWithin m limit (b * b % m) (e / 2) = (b * b) ^ (e / 2) % m := by
        rw [ih _ _ fewer, ← Nat.pow_mod]
      have square : (b * b) ^ (e / 2) = b ^ (2 * (e / 2)) := by
        rw [Nat.pow_mul, Nat.pow_two]
      rw [powModWithin, if_neg zero]
      dsimp only
      rw [half, square]
      split
      · have odd : 2 * (e / 2) + 1 = e := by omega
        rw [Nat.mul_mod_mod, ← Nat.pow_succ', Nat.succ_eq_add_one, odd]
      · have even : 2 * (e / 2) = e := by omega
        rw [even]

theorem powMod_eq (b e m : Nat) : powMod b e m = b ^ e % m :=
  powModWithin_eq m _ b e Nat.lt_log2_self

theorem length_of_encodeDigest? {size : Nat} {digest encoded : Bytes}
    (fits : encodeDigest? size digest = some encoded) : encoded.length = size := by
  rw [encodeDigest?] at fits
  split at fits
  · cases fits
    simp only [List.length_cons, List.length_append, List.length_replicate] at *
    omega
  · cases fits

/-- EMSA-PKCS1-v1_5 of a SHA-256 digest, in `size` bytes that have room for it. -/
def paddedDigest (size : Nat) (digest : Bytes) : Bytes :=
  [0x00, 0x01] ++ List.replicate (size - 54) 0xFF ++ [0x00] ++ digestInfo ++ digest

theorem length_digestInfo_append {digest : Bytes} (sized : digest.length = 32) :
    (digestInfo ++ digest).length = 51 := by
  rw [List.length_append, sized]
  rfl

theorem encodeDigest?_of_le {size : Nat} {digest : Bytes} (sized : digest.length = 32)
    (large : 62 ≤ size) : encodeDigest? size digest = some (paddedDigest size digest) := by
  have filling : size - 51 - 3 = size - 54 := by omega
  rw [encodeDigest?, length_digestInfo_append sized, if_pos large, filling, paddedDigest]
  simp only [List.cons_append, List.nil_append, List.append_assoc]

theorem encodeDigest?_of_lt {size : Nat} {digest : Bytes} (sized : digest.length = 32)
    (small : size < 62) : encodeDigest? size digest = none := by
  rw [encodeDigest?, length_digestInfo_append sized, if_neg (Nat.not_le.mpr small)]

theorem digest_eq_of_encodeDigest? {size : Nat} {first second encoded : Bytes}
    (sameLength : first.length = second.length)
    (fits : encodeDigest? size first = some encoded)
    (again : encodeDigest? size second = some encoded) : first = second := by
  rw [encodeDigest?] at fits again
  split at fits
  · split at again
    · have both := (Option.some.inj fits).trans (Option.some.inj again).symm
      simp only [List.length_append, sameLength, List.cons_append, List.cons.injEq, true_and] at both
      have tails := List.append_cancel_left both
      exact List.append_cancel_left (List.cons.inj tails).2
    · cases again
  · cases fits

/-- A signature is of one digest alone. -/
theorem PublicKey.digest_eq_of_verify {key : PublicKey} {first second signature : Bytes}
    (verified : key.verify first signature = true) (again : key.verify second signature = true) :
    Sha256.digest first = Sha256.digest second := by
  simp only [verify, Bool.and_eq_true, decide_eq_true_eq] at verified again
  exact digest_eq_of_encodeDigest? rfl verified.2 again.2

/-- A remainder for each of two factors is a number below their product. -/
theorem mul_add_lt_mul {h k p q : Nat} (first : h < p) (second : k < q) : h * q + k < p * q := by
  calc
    h * q + k < (h + 1) * q := by rw [Nat.add_mul]; omega
    _ ≤ p * q := Nat.mul_le_mul_right q first

namespace PrivateKey

variable (key : PrivateKey)

theorem modulus_pos : 0 < key.modulus :=
  Nat.zero_lt_of_lt key.valid.exponent_lt_modulus

/-- Both ways of the private operation give a number below the modulus. -/
theorem power_lt (c : Nat) : key.power c < key.modulus := by
  have p_pos := key.valid.one_lt_p
  have q_pos := key.valid.one_lt_q
  rw [power]
  split
  · rw [← key.valid.factors]
    apply mul_add_lt_mul
    · exact Nat.mod_lt _ (by omega)
    · rw [powMod_eq]
      exact Nat.mod_lt _ (by omega)
  · rw [powMod_eq]
    exact Nat.mod_lt _ key.modulus_pos

/-- Every signature that is given out is confirmed by the public key. -/
theorem verify_of_sign {message signature : Bytes} (signed : key.sign message = .ok signature) :
    key.publicKey.verify message signature = true := by
  rw [sign, signDigest] at signed
  split at signed
  · cases signed
  · rename_i encoded fits
    dsimp only at signed
    split at signed
    · rename_i confirmed
      cases signed
      have below := key.power_lt (Bytes.toNat encoded)
      have number : Bytes.toNat (Bytes.ofNat key.size (key.power (Bytes.toNat encoded))) =
          key.power (Bytes.toNat encoded) :=
        Bytes.toNat_ofNat _ _ (Nat.lt_trans below (Bytes.lt_pow_width key.modulus))
      have digits : Bytes.ofNat key.size (Bytes.toNat encoded) = encoded := by
        rw [← length_of_encodeDigest? fits]
        exact Bytes.ofNat_toNat encoded
      simp only [PublicKey.verify, number, Bytes.length_ofNat]
      have size : key.publicKey.size = key.size := rfl
      have modulus : key.publicKey.modulus = key.modulus := rfl
      have exponent : key.publicKey.exponent = key.publicExponent := rfl
      simp only [size, modulus, exponent, below, confirmed, digits, fits, decide_true, Bool.and_self]
    · cases signed

end PrivateKey

end RequestSigning.Rsa
