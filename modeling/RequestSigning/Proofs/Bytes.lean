import Mathlib
import RequestSigning.Bytes
set_option autoImplicit false

namespace RequestSigning.Bytes

theorem toNat_append_singleton (bytes : Bytes) (b : UInt8) :
    toNat (bytes ++ [b]) = toNat bytes * 256 + b.toNat := by
  simp only [toNat, List.foldl_append, List.foldl_cons, List.foldl_nil]

theorem toNat_ofNat (width n : Nat) (fits : n < 256 ^ width) : toNat (ofNat width n) = n := by
  induction width generalizing n with
  | zero =>
    have : n = 0 := by simpa using fits
    subst this
    rfl
  | succ width ih =>
    have high : n / 256 < 256 ^ width := by
      rw [Nat.pow_succ] at fits
      omega
    rw [ofNat, toNat_append_singleton, ih (n / 256) high, UInt8.toNat_ofNat']
    omega

theorem toNat_lt (bytes : Bytes) : toNat bytes < 256 ^ bytes.length := by
  induction bytes using List.reverseRecOn with
  | nil => decide
  | append_singleton bytes b ih =>
    have small := b.toNat_lt
    rw [toNat_append_singleton, List.length_append, List.length_singleton, Nat.pow_succ]
    omega

/-- As many digits as there were give the bytes back, leading zeros included. -/
theorem ofNat_toNat (bytes : Bytes) : ofNat bytes.length (toNat bytes) = bytes := by
  induction bytes using List.reverseRecOn with
  | nil => rfl
  | append_singleton bytes b ih =>
    have small := b.toNat_lt
    have high : (toNat bytes * 256 + b.toNat) / 256 = toNat bytes := by omega
    have low : UInt8.ofNat (toNat bytes * 256 + b.toNat) = b := by
      apply UInt8.toNat_inj.mp
      rw [UInt8.toNat_ofNat']
      omega
    rw [toNat_append_singleton, List.length_append, List.length_singleton, ofNat, high, ih, low]

theorem lt_pow_width (n : Nat) : n < 256 ^ width n := by
  by_cases zero : n = 0
  · rw [width, if_pos zero, zero]
    decide
  · rw [width, if_neg zero]
    calc
      n < 2 ^ (n.log2 + 1) := Nat.lt_log2_self
      _ ≤ 2 ^ (8 * (n.log2 / 8 + 1)) := Nat.pow_le_pow_right (by decide) (by omega)
      _ = 256 ^ (n.log2 / 8 + 1) := by rw [Nat.pow_mul]

theorem width_le_iff {n size : Nat} : width n ≤ size ↔ n < 256 ^ size := by
  constructor
  · intro fits
    exact Nat.lt_of_lt_of_le (lt_pow_width n) (Nat.pow_le_pow_right (by decide) fits)
  · intro below
    rw [width]
    split
    · exact Nat.zero_le size
    · rename_i nonzero
      have bits : n.log2 < 8 * size := by
        rw [Nat.log2_lt nonzero, Nat.pow_mul]
        exact below
      omega

theorem toNat_zero_cons (bytes : Bytes) : toNat (0 :: bytes) = toNat bytes :=
  rfl

/-- A number whose first digit is not zero is as wide as its digits. -/
theorem width_toNat_cons {b : UInt8} (nonzero : b ≠ 0) (bytes : Bytes) :
    width (toNat (b :: bytes)) = bytes.length + 1 := by
  have upper : width (toNat (b :: bytes)) ≤ bytes.length + 1 :=
    width_le_iff.mpr (toNat_lt (b :: bytes))
  have lower : ¬ width (toNat (b :: bytes)) ≤ bytes.length := by
    intro narrow
    have below := width_le_iff.mp narrow
    have digits := ofNat_toNat (b :: bytes)
    have padded := ofNat_toNat (0 :: ofNat bytes.length (toNat (b :: bytes)))
    rw [toNat_zero_cons, toNat_ofNat _ _ below, List.length_cons, length_ofNat] at padded
    rw [List.length_cons, padded] at digits
    exact nonzero (List.cons.inj digits).1.symm
  omega

/-- The order of byte strings is the lexicographic order of lists. -/
theorem compare_eq_gt_iff {left right : Bytes} : compare left right = .gt ↔ right < left := by
  induction left generalizing right with
  | nil => cases right <;> simp [compare]
  | cons a left ih =>
    cases right with
    | nil => simp [compare]
    | cons b right =>
      rw [compare, List.cons_lt_cons_iff, ← ih]
      split
      · rename_i less
        have apart : ¬ b < a ∧ b ≠ a := ⟨UInt8.lt_asymm less, (UInt8.ne_of_lt less).symm⟩
        simp only [reduceCtorEq, apart, false_and, or_self]
      · split
        · rename_i greater
          simp only [greater, true_or]
        · rename_i notLess notGreater
          have same : b = a :=
            UInt8.le_antisymm (UInt8.not_lt.mp notLess) (UInt8.not_lt.mp notGreater)
          simp only [same, UInt8.lt_irrefl, true_and, false_or]

theorem compare_ne_gt_iff {left right : Bytes} : compare left right ≠ .gt ↔ left ≤ right := by
  rw [ne_eq, compare_eq_gt_iff, List.not_lt]

section Words

theorem ofUInt32_eq_ofNat (n : UInt32) : ofUInt32 n = ofNat 4 n.toNat := by
  simp only [ofUInt32, ofNat, List.nil_append, List.cons_append, List.cons.injEq, and_true,
    ← UInt8.toNat_inj, UInt32.toNat_toUInt8, UInt32.toNat_shiftRight, UInt8.toNat_ofNat',
    UInt32.reduceToNat, Nat.reduceMod, Nat.shiftRight_eq_div_pow]
  omega

theorem ofUInt64_eq_ofNat (n : UInt64) : ofUInt64 n = ofNat 8 n.toNat := by
  simp only [ofUInt64, ofUInt32_eq_ofNat, ofNat, List.nil_append, List.cons_append,
    List.cons.injEq, and_true, ← UInt8.toNat_inj, UInt64.toNat_toUInt32,
    UInt64.toNat_shiftRight, UInt8.toNat_ofNat', UInt64.reduceToNat, Nat.reduceMod,
    Nat.shiftRight_eq_div_pow]
  omega

/-- Eight bytes leave nothing out of a number of 64 bits. -/
theorem toNat_toUInt64 (bytes : Bytes) (short : bytes.length ≤ 8) :
    (toUInt64 bytes).toNat = toNat bytes := by
  induction bytes using List.reverseRecOn with
  | nil => rfl
  | append_singleton bytes b ih =>
    rw [List.length_append, List.length_singleton] at short
    have before := ih (Nat.le_of_succ_le short)
    have small : toNat bytes < 256 ^ 7 :=
      lt_of_lt_of_le (toNat_lt bytes) (Nat.pow_le_pow_right (by decide) (by omega))
    have room : toNat bytes * 2 ^ 8 < 2 ^ 64 := by omega
    have step : toUInt64 (bytes ++ [b]) = toUInt64 bytes <<< 8 ||| b.toUInt64 := by
      simp only [toUInt64, List.foldl_append, List.foldl_cons, List.foldl_nil]
    rw [step, UInt64.toNat_or, UInt64.toNat_shiftLeft, before, UInt8.toNat_toUInt64,
      show (8 : UInt64).toNat % 64 = 8 from rfl, Nat.shiftLeft_eq, Nat.mod_eq_of_lt room,
      ← Nat.shiftLeft_eq, ← Nat.shiftLeft_add_eq_or_of_lt b.toNat_lt, Nat.shiftLeft_eq,
      toNat_append_singleton]

@[simp] theorem toUInt64_ofUInt64 (n : UInt64) : toUInt64 (ofUInt64 n) = n := by
  apply UInt64.toNat_inj.mp
  rw [toNat_toUInt64 _ (le_of_eq (length_ofUInt64 n)), ofUInt64_eq_ofNat,
    toNat_ofNat 8 _ n.toNat_lt]

theorem ofUInt64_toUInt64 {bytes : Bytes} (eight : bytes.length = 8) :
    ofUInt64 (toUInt64 bytes) = bytes := by
  rw [ofUInt64_eq_ofNat, toNat_toUInt64 _ (le_of_eq eight), ← eight, ofNat_toNat]

end Words

section Pieces

variable {size : Nat} {bytes block left right : Bytes}

@[simp] theorem length_xor (left right : Bytes) :
    (xor left right).length = min left.length right.length :=
  List.length_zipWith

/-- What is added twice is gone. -/
theorem xor_xor_cancel (left right : Bytes) (covered : left.length ≤ right.length) :
    xor (xor left right) right = left := by
  induction left generalizing right with
  | nil => rfl
  | cons a left ih =>
    cases right with
    | nil => simp at covered
    | cons b right =>
      have rest := ih right (Nat.le_of_succ_le_succ covered)
      simp only [xor, List.zipWith_cons_cons] at rest ⊢
      rw [rest, UInt8.xor_assoc, UInt8.xor_self, UInt8.xor_zero]

theorem length_drop_le (size_pos : 0 < size) {limit : Nat} (filled : bytes ≠ [])
    (enough : bytes.length ≤ limit + 1) : (bytes.drop size).length ≤ limit := by
  have some : 0 < bytes.length := List.length_pos_iff.mpr filled
  rw [List.length_drop]
  omega

theorem chunksWithin_of_le (size_pos : 0 < size) {limit more : Nat} (bytes : Bytes)
    (enough : bytes.length ≤ limit) (le : limit ≤ more) :
    chunksWithin size more bytes = chunksWithin size limit bytes := by
  induction limit generalizing more bytes with
  | zero =>
    have empty : bytes = [] := List.length_eq_zero_iff.mp (Nat.le_zero.mp enough)
    subst empty
    cases more with
    | zero => rfl
    | succ more => rfl
  | succ limit ih =>
    cases more with
    | zero => omega
    | succ more =>
      rw [chunksWithin, chunksWithin]
      split
      · rfl
      · rename_i filled
        rw [ih _ (length_drop_le size_pos filled enough) (Nat.le_of_succ_le_succ le)]

theorem chunks_append (size_pos : 0 < size) (whole : block.length = size) (rest : Bytes) :
    chunks size (block ++ rest) = block :: chunks size rest := by
  have filled : block ++ rest ≠ [] := by
    intro empty
    have nothing := congrArg List.length empty
    rw [List.length_append, List.length_nil] at nothing
    omega
  obtain ⟨limit, length⟩ : ∃ limit, (block ++ rest).length = limit + 1 :=
    Nat.exists_eq_succ_of_ne_zero (fun zero => filled (List.length_eq_zero_iff.mp zero))
  have enough : rest.length ≤ limit := by
    rw [List.length_append] at length
    omega
  rw [chunks, length, chunksWithin, if_neg filled, List.take_left' whole, List.drop_left' whole,
    chunksWithin_of_le size_pos rest (le_refl _) enough, chunks]

theorem flatten_chunks (size_pos : 0 < size) (bytes : Bytes) :
    (chunks size bytes).flatten = bytes := by
  have within (limit : Nat) (bytes : Bytes) (enough : bytes.length ≤ limit) :
      (chunksWithin size limit bytes).flatten = bytes := by
    induction limit generalizing bytes with
    | zero =>
      rw [List.length_eq_zero_iff.mp (Nat.le_zero.mp enough)]
      rfl
    | succ limit ih =>
      rw [chunksWithin]
      split
      · rename_i empty
        rw [empty]
        rfl
      · rename_i filled
        rw [List.flatten_cons, ih _ (length_drop_le size_pos filled enough), List.take_append_drop]
  exact within bytes.length bytes (le_refl _)

theorem ne_nil_of_mem_chunks (size_pos : 0 < size) (inside : block ∈ chunks size bytes) :
    block ≠ [] := by
  have within (limit : Nat) (bytes : Bytes) (inside : block ∈ chunksWithin size limit bytes) :
      block ≠ [] := by
    induction limit generalizing bytes with
    | zero => cases inside
    | succ limit ih =>
      rw [chunksWithin] at inside
      split at inside
      · cases inside
      · rename_i filled
        rcases List.mem_cons.mp inside with rfl | later
        · intro empty
          rcases List.take_eq_nil_iff.mp empty with zero | empty
          · omega
          · exact filled empty
        · exact ih _ later
  exact within _ bytes inside

/-- Where the size divides the length, all pieces are whole. -/
theorem length_of_mem_chunks (divides : bytes.length % size = 0)
    (inside : block ∈ chunks size bytes) : block.length = size := by
  have within (limit : Nat) (bytes : Bytes) (divides : bytes.length % size = 0)
      (inside : block ∈ chunksWithin size limit bytes) : block.length = size := by
    induction limit generalizing bytes with
    | zero => cases inside
    | succ limit ih =>
      rw [chunksWithin] at inside
      split at inside
      · cases inside
      · rename_i filled
        have some : 0 < bytes.length := List.length_pos_iff.mpr filled
        have least : size ≤ bytes.length :=
          Nat.le_of_dvd some (Nat.dvd_of_mod_eq_zero divides)
        rcases List.mem_cons.mp inside with rfl | later
        · rw [List.length_take]
          omega
        · apply ih _ _ later
          rw [List.length_drop, ← Nat.mod_eq_sub_mod least]
          exact divides
  exact within _ bytes divides inside

theorem length_flatten (pieces : List Bytes) (whole : ∀ block ∈ pieces, block.length = size) :
    pieces.flatten.length = pieces.length * size := by
  induction pieces with
  | nil => exact (Nat.zero_mul size).symm
  | cons block pieces ih =>
    obtain ⟨here, later⟩ := List.forall_mem_cons.mp whole
    rw [List.flatten_cons, List.length_append, here, ih later, List.length_cons, Nat.succ_mul,
      Nat.add_comm]

theorem length_chunks (size_pos : 0 < size) (divides : bytes.length % size = 0) :
    (chunks size bytes).length = bytes.length / size := by
  have parts := length_flatten (chunks size bytes) fun _ inside =>
    length_of_mem_chunks divides inside
  rw [flatten_chunks size_pos] at parts
  rw [parts, Nat.mul_div_cancel _ size_pos]

end Pieces

end RequestSigning.Bytes
