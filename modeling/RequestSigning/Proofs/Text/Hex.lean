import RequestSigning.Proofs.Text.Utf8
import RequestSigning.Text.Hex
set_option autoImplicit false

namespace RequestSigning.Hex

/-- Digits in either case: what they are in lower case is the written form of the bytes. -/
def Spells (digits : List Char) (bytes : Bytes) : Prop :=
  digits.map Char.toLower = encode bytes

instance (digits : List Char) (bytes : Bytes) : Decidable (Spells digits bytes) :=
  inferInstanceAs (Decidable (digits.map Char.toLower = encode bytes))

theorem toNat_lt_of_toLower {c : Char} (ascii : c.toLower.toNat < 0x80) : c.toNat < 0x80 := by
  rw [Char.toLower] at ascii
  split at ascii
  · rename_i upper
    have below : c.val.toNat ≤ 90 := UInt32.le_iff_toNat_le.mp upper.2
    exact Nat.lt_of_le_of_lt below (by decide)
  · exact ascii

theorem digit_lt : ∀ n < 16, (digit n).toNat < 0x80 := by
  decide

theorem value?_of_toLower_ofNat : ∀ b : UInt8, b < 0x80 → ∀ n < 16,
    (Char.ofNat b.toNat).toLower = digit n → value? b = some (UInt8.ofNat n) := by
  decide +kernel

theorem encode_of_toLower {c : Char} {n : Nat} (small : n < 16) (lower : c.toLower = digit n) :
    ∃ b, String.utf8EncodeChar c = [b] ∧ value? b = some (UInt8.ofNat n) := by
  have ascii : c.toNat < 0x80 := toNat_lt_of_toLower (by rw [lower]; exact digit_lt n small)
  have same : (UInt8.ofNat c.toNat).toNat = c.toNat :=
    UInt8.toNat_ofNat_of_lt' (Nat.lt_trans ascii (by decide))
  refine ⟨UInt8.ofNat c.toNat, Utf8.utf8EncodeChar_of_lt ascii, ?_⟩
  apply value?_of_toLower_ofNat _ (UInt8.lt_iff_toNat_lt.mpr (by rw [same]; exact ascii)) n small
  rw [same, Char.ofNat_toNat, lower]

theorem join_digits (b : UInt8) :
    UInt8.ofNat (b.toNat / 16) * 16 + UInt8.ofNat (b.toNat % 16) = b := by
  revert b
  decide +kernel

/-- Digits in either case are read as the bytes that they spell. -/
theorem Spells.decode {digits : List Char} {bytes : Bytes} (spells : Spells digits bytes) :
    decode (Utf8.encode digits) = .ok bytes := by
  have run (index : Nat) : (Utf8.encode digits).length % 2 = 0 ∧
      decodeFrom index (Utf8.encode digits) = .ok bytes := by
    induction bytes generalizing digits index with
    | nil =>
      rw [Spells, encode, List.flatMap_nil, List.map_eq_nil_iff] at spells
      subst spells
      exact ⟨rfl, rfl⟩
    | cons b bytes ih =>
      have small := b.toNat_lt
      obtain ⟨high, rest, rfl, upper, spells⟩ := List.map_eq_cons_iff.mp spells
      obtain ⟨low, rest, rfl, lower, spells⟩ := List.map_eq_cons_iff.mp spells
      obtain ⟨h, highByte, highValue⟩ := encode_of_toLower (by omega) upper
      obtain ⟨l, lowByte, lowValue⟩ := encode_of_toLower (by omega) lower
      obtain ⟨even, decoded⟩ := ih spells (index + 2)
      have written : Utf8.encode (high :: low :: rest) = h :: l :: Utf8.encode rest := by
        simp only [Utf8.encode, List.flatMap_cons, highByte, lowByte, List.singleton_append]
      rw [written]
      constructor
      · simp only [List.length_cons]
        omega
      · rw [decodeFrom, highValue, lowValue]
        dsimp only
        rw [decoded, join_digits]
        rfl
  obtain ⟨even, decoded⟩ := run 0
  rw [Hex.decode, if_neg (by omega), decoded]

theorem isAlphanum_digit : ∀ n < 16, (digit n).isAlphanum = true := by
  decide

theorem isAlphanum_of_toLower {c : Char} (alphanumeric : c.toLower.isAlphanum = true) :
    c.isAlphanum = true := by
  rw [Char.toLower] at alphanumeric
  split at alphanumeric
  · rename_i upper
    have letter : c.isUpper = true := decide_eq_true upper
    rw [Char.isAlphanum, Char.isAlpha, letter, Bool.true_or, Bool.true_or]
  · exact alphanumeric

theorem Spells.isAlphanum {digits : List Char} {bytes : Bytes} (spells : Spells digits bytes) :
    ∀ c ∈ digits, c.isAlphanum = true := by
  intro c inside
  apply isAlphanum_of_toLower
  have written : c.toLower ∈ encode bytes := spells ▸ List.mem_map_of_mem inside
  obtain ⟨b, -, here⟩ := List.mem_flatMap.mp written
  have small := b.toNat_lt
  rcases List.mem_cons.mp here with same | here
  · rw [same]
    exact isAlphanum_digit _ (by omega)
  · rw [List.mem_singleton.mp here]
    exact isAlphanum_digit _ (by omega)

end RequestSigning.Hex
