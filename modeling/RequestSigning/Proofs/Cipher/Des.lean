import RequestSigning.Cipher.Des
import RequestSigning.Proofs.Bytes
set_option autoImplicit false

namespace RequestSigning.Des

section Permutation

variable {table : List UInt64} {width x : UInt64}

/-- The bit, counted from the right and from zero, that the table moves to place `i`. -/
def source? (table : List UInt64) (width : UInt64) (i : Nat) : Option Nat :=
  table.reverse[i]?.map fun place => (width - place).toNat % 64

theorem testBit_shiftRight_and_one (x n : UInt64) (i : Nat) :
    (x >>> n &&& 1).toNat.testBit i = (decide (i = 0) && x.toNat.testBit (n.toNat % 64)) := by
  rw [UInt64.toNat_and, UInt64.toNat_shiftRight, Nat.testBit_and, Nat.testBit_shiftRight,
    show (1 : UInt64).toNat = 2 ^ 0 from rfl, Nat.testBit_two_pow, Bool.and_comm]
  by_cases zero : i = 0
  · subst zero
    rfl
  · rw [decide_eq_false (fun same => zero same.symm), decide_eq_false zero, Bool.false_and,
      Bool.false_and]

/-- A permuted number has at each place the bit that the table names for it. -/
theorem testBit_permute (table : List UInt64) (width x : UInt64) {i : Nat} (within : i < 64) :
    (permute table width x).toNat.testBit i =
      (source? table width i).any fun j => x.toNat.testBit j := by
  induction table using List.reverseRecOn generalizing i with
  | nil => exact Nat.zero_testBit i
  | append_singleton table place ih =>
    have step : permute (table ++ [place]) width x =
        permute table width x <<< 1 ||| (x >>> (width - place) &&& 1) := by
      simp only [permute, List.foldl_append, List.foldl_cons, List.foldl_nil]
    rw [step, UInt64.toNat_or, Nat.testBit_or, UInt64.toNat_shiftLeft,
      show (1 : UInt64).toNat % 64 = 1 from rfl, Nat.testBit_mod_two_pow, Nat.testBit_shiftLeft,
      testBit_shiftRight_and_one, source?, List.reverse_append]
    cases i with
    | zero =>
      rw [decide_eq_false (by omega : ¬ 0 ≥ 1), decide_eq_true rfl, Bool.false_and,
        Bool.and_false, Bool.false_or, Bool.true_and]
      rfl
    | succ i =>
      rw [decide_eq_true within, decide_eq_true (by omega : i + 1 ≥ 1),
        decide_eq_false (Nat.succ_ne_zero i), Bool.true_and, Bool.true_and, Bool.false_and,
        Bool.or_false, Nat.add_sub_cancel, ih (by omega : i < 64)]
      rfl

theorem eq_of_testBit {x y : UInt64}
    (same : ∀ i < 64, x.toNat.testBit i = y.toNat.testBit i) : x = y := by
  apply UInt64.toNat_inj.mp
  apply Nat.eq_of_testBit_eq
  intro i
  by_cases within : i < 64
  · exact same i within
  · have above : 2 ^ 64 ≤ 2 ^ i := Nat.pow_le_pow_right (by decide) (Nat.le_of_not_lt within)
    rw [Nat.testBit_lt_two_pow (Nat.lt_of_lt_of_le x.toNat_lt above),
      Nat.testBit_lt_two_pow (Nat.lt_of_lt_of_le y.toNat_lt above)]

theorem source?_lt {i j : Nat} (named : source? table width i = some j) : j < 64 := by
  obtain ⟨place, -, rfl⟩ := Option.map_eq_some_iff.mp named
  exact Nat.mod_lt _ (by decide)

/-- What one table moves from place to place, the other moves back. -/
theorem permute_permute {forth back : List UInt64}
    (inverse : ∀ i < 64, (source? back 64 i).bind (source? forth 64) = some i) (x : UInt64) :
    permute back 64 (permute forth 64 x) = x := by
  apply eq_of_testBit
  intro i within
  obtain ⟨j, named, returned⟩ := Option.bind_eq_some_iff.mp (inverse i within)
  rw [testBit_permute back 64 _ within, named, Option.any_some,
    testBit_permute forth 64 x (source?_lt named), returned, Option.any_some]

theorem permute_lt (short : table.length ≤ 32) : (permute table width x).toNat < 2 ^ 32 := by
  apply Nat.lt_pow_two_of_testBit
  intro i beyond
  by_cases within : i < 64
  · have missing : table.reverse[i]? = none :=
      List.getElem?_eq_none (by rw [List.length_reverse]; omega)
    rw [testBit_permute table width x within, source?, missing]
    rfl
  · have above : 2 ^ 64 ≤ 2 ^ i := Nat.pow_le_pow_right (by decide) (Nat.le_of_not_lt within)
    exact Nat.testBit_lt_two_pow (Nat.lt_of_lt_of_le (UInt64.toNat_lt _) above)

theorem finalPermutation_initialPermutation (x : UInt64) :
    permute finalPermutation 64 (permute initialPermutation 64 x) = x :=
  permute_permute (by decide +kernel) x

theorem initialPermutation_finalPermutation (x : UInt64) :
    permute initialPermutation 64 (permute finalPermutation 64 x) = x :=
  permute_permute (by decide +kernel) x

end Permutation

section Halves

variable {left right : UInt64}

theorem toNat_shiftRight (x : UInt64) : (x >>> 32).toNat = x.toNat / 2 ^ 32 := by
  rw [UInt64.toNat_shiftRight, show (32 : UInt64).toNat % 64 = 32 from rfl,
    Nat.shiftRight_eq_div_pow]

theorem toNat_and (x : UInt64) : (x &&& 0xFFFFFFFF).toNat = x.toNat % 2 ^ 32 := by
  rw [UInt64.toNat_and, show (0xFFFFFFFF : UInt64).toNat = 2 ^ 32 - 1 from rfl,
    Nat.and_two_pow_sub_one_eq_mod]

theorem toNat_join (small : left.toNat < 2 ^ 32) (fits : right.toNat < 2 ^ 32) :
    (right <<< 32 ||| left).toNat = right.toNat * 2 ^ 32 + left.toNat := by
  have room : right.toNat * 2 ^ 32 < 2 ^ 64 := by omega
  rw [UInt64.toNat_or, UInt64.toNat_shiftLeft, show (32 : UInt64).toNat % 64 = 32 from rfl,
    Nat.shiftLeft_eq, Nat.mod_eq_of_lt room, ← Nat.shiftLeft_eq,
    ← Nat.shiftLeft_add_eq_or_of_lt small, Nat.shiftLeft_eq]

theorem shiftRight_join (small : left.toNat < 2 ^ 32) (fits : right.toNat < 2 ^ 32) :
    (right <<< 32 ||| left) >>> 32 = right := by
  apply UInt64.toNat_inj.mp
  rw [toNat_shiftRight, toNat_join small fits]
  omega

theorem and_join (small : left.toNat < 2 ^ 32) (fits : right.toNat < 2 ^ 32) :
    (right <<< 32 ||| left) &&& 0xFFFFFFFF = left := by
  apply UInt64.toNat_inj.mp
  rw [toNat_and, toNat_join small fits]
  omega

theorem toNat_shiftRight_lt (x : UInt64) : (x >>> 32).toNat < 2 ^ 32 := by
  have bound := x.toNat_lt
  rw [toNat_shiftRight]
  omega

theorem toNat_and_lt (x : UInt64) : (x &&& 0xFFFFFFFF).toNat < 2 ^ 32 := by
  rw [toNat_and]
  omega

theorem join_halves (x : UInt64) : (x >>> 32) <<< 32 ||| (x &&& 0xFFFFFFFF) = x := by
  apply UInt64.toNat_inj.mp
  rw [toNat_join (toNat_and_lt x) (toNat_shiftRight_lt x), toNat_shiftRight, toNat_and]
  omega

end Halves

section Rounds

variable {left right : UInt64}

theorem rounds_cons (key : UInt64) (keys : List UInt64) (left right : UInt64) :
    rounds (key :: keys) left right = rounds keys right (left ^^^ roundFunction key right) :=
  rfl

theorem rounds_append_singleton (keys : List UInt64) (key left right : UInt64) :
    rounds (keys ++ [key]) left right =
      ((rounds keys left right).2,
        (rounds keys left right).1 ^^^ roundFunction key (rounds keys left right).2) := by
  simp only [rounds, List.foldl_append, List.foldl_cons, List.foldl_nil]

/-- The rounds in reverse order, on halves that changed places, undo each other. -/
theorem rounds_reverse (keys : List UInt64) (left right : UInt64) :
    rounds keys.reverse (rounds keys left right).2 (rounds keys left right).1 = (right, left) := by
  induction keys generalizing left right with
  | nil => rfl
  | cons key keys ih =>
    rw [rounds_cons, List.reverse_cons, rounds_append_singleton, ih]
    dsimp only
    rw [UInt64.xor_assoc, UInt64.xor_self, UInt64.xor_zero]

theorem roundFunction_lt (key half : UInt64) : (roundFunction key half).toNat < 2 ^ 32 :=
  permute_lt (by decide)

theorem rounds_lt (keys : List UInt64) (small : left.toNat < 2 ^ 32) (fits : right.toNat < 2 ^ 32) :
    (rounds keys left right).1.toNat < 2 ^ 32 ∧ (rounds keys left right).2.toNat < 2 ^ 32 := by
  induction keys generalizing left right with
  | nil => exact ⟨small, fits⟩
  | cons key keys ih =>
    rw [rounds_cons]
    apply ih fits
    rw [UInt64.toNat_xor]
    exact Nat.xor_lt_two_pow small (roundFunction_lt key right)

/-- The same keys in reverse order decrypt. -/
theorem apply_reverse (keys : List UInt64) (block : UInt64) :
    apply keys.reverse (apply keys block) = block := by
  let start := permute initialPermutation 64 block
  let ends := rounds keys (start >>> 32) (start &&& 0xFFFFFFFF)
  obtain ⟨small, fits⟩ := rounds_lt keys (toNat_shiftRight_lt start) (toNat_and_lt start)
  have undone : rounds keys.reverse ends.2 ends.1 = (start &&& 0xFFFFFFFF, start >>> 32) :=
    rounds_reverse keys _ _
  have written : apply keys block = permute finalPermutation 64 (ends.2 <<< 32 ||| ends.1) := rfl
  rw [written, apply, initialPermutation_finalPermutation]
  dsimp only
  rw [shiftRight_join small fits, and_join small fits, undone]
  dsimp only
  rw [join_halves, finalPermutation_initialPermutation]

end Rounds

theorem length_encrypt (keys : List UInt64) (block : Bytes) : (encrypt keys block).length = 8 :=
  Bytes.length_ofUInt64 _

theorem length_decrypt (keys : List UInt64) (block : Bytes) : (decrypt keys block).length = 8 :=
  length_encrypt _ _

theorem decrypt_encrypt (keys : List UInt64) {block : Bytes} (eight : block.length = 8) :
    decrypt keys (encrypt keys block) = block := by
  rw [decrypt, encrypt, encrypt, Bytes.toUInt64_ofUInt64, apply_reverse,
    Bytes.ofUInt64_toUInt64 eight]

theorem encrypt_decrypt (keys : List UInt64) {block : Bytes} (eight : block.length = 8) :
    encrypt keys (decrypt keys block) = block := by
  have back := decrypt_encrypt keys.reverse eight
  rwa [decrypt, List.reverse_reverse] at back

theorem cipher_isLawful : cipher.IsLawful where
  blockSize_pos := by decide
  blockSize_lt := by decide
  length_encrypt := fun _ _ _ _ => length_encrypt _ _
  decrypt_encrypt := fun _ _ _ eight => decrypt_encrypt _ eight

theorem tripleCipher_isLawful : tripleCipher.IsLawful where
  blockSize_pos := by decide
  blockSize_lt := by decide
  length_encrypt := fun _ _ _ _ => length_encrypt _ _
  decrypt_encrypt := by
    intro key block _ eight
    dsimp only [tripleCipher]
    rw [decrypt_encrypt _ (length_decrypt _ _), encrypt_decrypt _ (length_encrypt _ _),
      decrypt_encrypt _ eight]

end RequestSigning.Des
