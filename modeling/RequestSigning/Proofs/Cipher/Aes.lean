import RequestSigning.Cipher.Aes
import RequestSigning.Proofs.Bytes
set_option autoImplicit false

namespace RequestSigning.Aes

section Field

variable {a b c : UInt8}

theorem shiftRight_seven (a : UInt8) : a >>> 7 = if a < 0x80 then 0 else 1 := by
  have quotient : (a >>> 7).toNat = a.toNat / 128 := Nat.shiftRight_eq_div_pow a.toNat 7
  have bound := a.toNat_lt
  have below : a < 0x80 ↔ a.toNat < 128 := UInt8.lt_iff_toNat_lt
  rw [← UInt8.toNat_inj, quotient]
  split
  next small =>
    exact Nat.div_eq_of_lt (below.mp small)
  next large =>
    rw [below] at large
    rw [UInt8.toNat_one]
    omega

theorem double_eq (a : UInt8) : double a = a <<< 1 ^^^ (a >>> 7) * 0x1B := by
  rw [double, shiftRight_seven]
  split
  · rw [UInt8.zero_mul, UInt8.xor_zero]
  · rw [UInt8.one_mul]

theorem double_xor (a b : UInt8) : double (a ^^^ b) = double a ^^^ double b := by
  have reduced : ((a >>> 7) ^^^ (b >>> 7)) * (0x1B : UInt8) =
      (a >>> 7) * (0x1B : UInt8) ^^^ (b >>> 7) * (0x1B : UInt8) := by
    rw [shiftRight_seven, shiftRight_seven]
    split <;> split <;> decide
  rw [double_eq, double_eq, double_eq, UInt8.shiftLeft_xor, UInt8.shiftRight_xor, reduced]
  ac_rfl

/-- The part of a product that some of the bits of the second factor contribute. -/
def partialProduct (a b : UInt8) (bits : List Nat) : UInt8 :=
  bits.foldr
    (fun bit product => double product ^^^ if (b >>> UInt8.ofNat bit) &&& 1 = 1 then a else 0) 0

theorem mul_eq_partialProduct (a b : UInt8) : mul a b = partialProduct a b (List.range 8) :=
  rfl

theorem partialProduct_cons (a b : UInt8) (bit : Nat) (bits : List Nat) :
    partialProduct a b (bit :: bits) =
      double (partialProduct a b bits) ^^^ if (b >>> UInt8.ofNat bit) &&& 1 = 1 then a else 0 :=
  rfl

/-- Multiplication distributes over addition, which is exclusive or. -/
theorem mul_xor (a b c : UInt8) : mul (a ^^^ b) c = mul a c ^^^ mul b c := by
  simp only [mul_eq_partialProduct]
  induction List.range 8 with
  | nil => exact UInt8.xor_self.symm
  | cons bit bits ih =>
    rw [partialProduct_cons, partialProduct_cons, partialProduct_cons, ih, double_xor]
    split
    · ac_rfl
    · rw [UInt8.xor_zero, UInt8.xor_zero, UInt8.xor_zero]

theorem low_bit (a : UInt8) : a &&& 1 = 0 ∨ a &&& 1 = 1 := by
  simp only [← UInt8.toNat_inj, UInt8.toNat_and]
  rw [UInt8.toNat_one, Nat.and_one_is_mod]
  exact Nat.mod_two_eq_zero_or_one a.toNat

theorem xor_and (a b c : UInt8) : (a ^^^ b) &&& c = (a &&& c) ^^^ (b &&& c) :=
  UInt8.toNat_inj.mp (by
    simp only [UInt8.toNat_and, UInt8.toNat_xor, Nat.and_xor_distrib_right])

theorem mul_xor_right (a b c : UInt8) : mul a (b ^^^ c) = mul a b ^^^ mul a c := by
  simp only [mul_eq_partialProduct]
  induction List.range 8 with
  | nil => exact UInt8.xor_self.symm
  | cons bit bits ih =>
    have chosen : (if ((b ^^^ c) >>> UInt8.ofNat bit) &&& 1 = 1 then a else 0) =
        (if (b >>> UInt8.ofNat bit) &&& 1 = 1 then a else 0) ^^^
          (if (c >>> UInt8.ofNat bit) &&& 1 = 1 then a else 0) := by
      rw [UInt8.shiftRight_xor, xor_and]
      rcases low_bit (b >>> UInt8.ofNat bit) with left | left <;>
        rcases low_bit (c >>> UInt8.ofNat bit) with right | right <;>
        rw [left, right] <;> simp
    rw [partialProduct_cons, partialProduct_cons, partialProduct_cons, ih, double_xor, chosen]
    ac_rfl

/-- Doubling one factor doubles the product. -/
theorem mul_double (a b : UInt8) : mul (double a) b = double (mul a b) := by
  simp only [mul_eq_partialProduct]
  induction List.range 8 with
  | nil => exact (by decide : (0 : UInt8) = double 0)
  | cons bit bits ih =>
    rw [partialProduct_cons, partialProduct_cons, ih, double_xor]
    split
    · rfl
    · rfl

/-- The bytes with a single bit. -/
def units : List UInt8 := [1, 2, 4, 8, 16, 32, 64, 128]

theorem sum_units : ∀ a : UInt8,
    units.foldr (fun unit sum => (if a &&& unit = 0 then 0 else unit) ^^^ sum) 0 = a := by
  decide +kernel

/-- What holds of single bits and is kept by addition holds of every byte. -/
theorem byte_induction {holds : UInt8 → Prop} (zero : holds 0) (unit : ∀ b ∈ units, holds b)
    (add : ∀ a b, holds a → holds b → holds (a ^^^ b)) (a : UInt8) : holds a := by
  have sum (some : List UInt8) (among : ∀ b ∈ some, b ∈ units) :
      holds (some.foldr (fun unit sum => (if a &&& unit = 0 then 0 else unit) ^^^ sum) 0) := by
    induction some with
    | nil => exact zero
    | cons b rest ih =>
      obtain ⟨here, later⟩ := List.forall_mem_cons.mp among
      apply add _ _ _ (ih later)
      split
      · exact zero
      · exact unit b here
  rw [← sum_units a]
  exact sum units fun _ inside => inside

theorem zero_mul (b : UInt8) : mul 0 b = 0 := by
  have twice := mul_xor 0 0 b
  rwa [UInt8.xor_self, UInt8.xor_self] at twice

theorem mul_zero (a : UInt8) : mul a 0 = 0 := by
  have twice := mul_xor_right a 0 0
  rwa [UInt8.xor_self, UInt8.xor_self] at twice

theorem units_mul :
    ∀ a ∈ units, mul a 1 = a ∧ ∀ b ∈ units, mul a b = mul b a := by
  decide +kernel

theorem mul_one (a : UInt8) : mul a 1 = a := by
  induction a using byte_induction with
  | zero => exact zero_mul 1
  | unit b single => exact (units_mul b single).1
  | add c d left right => rw [mul_xor, left, right]

theorem mul_comm (a b : UInt8) : mul a b = mul b a := by
  induction a using byte_induction with
  | zero => rw [zero_mul, mul_zero]
  | add c d left right => rw [mul_xor, mul_xor_right, left, right]
  | unit a single =>
    induction b using byte_induction with
    | zero => rw [zero_mul, mul_zero]
    | add c d left right => rw [mul_xor, mul_xor_right, left, right]
    | unit b other => exact (units_mul a single).2 b other

theorem mul_assoc (a b c : UInt8) : mul (mul a b) c = mul a (mul b c) := by
  have step (a b : UInt8) : mul a (double b) = double (mul a b) := by
    rw [mul_comm, mul_double, mul_comm]
  rw [mul_eq_partialProduct, mul_eq_partialProduct b c]
  induction List.range 8 with
  | nil => exact (mul_zero a).symm
  | cons bit bits ih =>
    rw [partialProduct_cons, partialProduct_cons, ih, mul_xor_right, step]
    split
    · rfl
    · rw [mul_zero]

/-- The product of as many factors. -/
def power (a : UInt8) : Nat → UInt8
  | 0 => 1
  | n + 1 => mul (power a n) a

theorem power_add (a : UInt8) (m n : Nat) : power a (m + n) = mul (power a m) (power a n) := by
  induction n with
  | zero => exact (mul_one _).symm
  | succ n ih => rw [← Nat.add_assoc, power, power, ih, mul_assoc]

theorem power_mul (a : UInt8) (m n : Nat) : power a (m * n) = power (power a m) n := by
  induction n with
  | zero => rfl
  | succ n ih => rw [Nat.mul_succ, power_add, ih, power]

theorem power_one (a : UInt8) : power a 1 = a := by
  rw [power, power, mul_comm, mul_one]

theorem inverse_eq_power (a : UInt8) : inverse a = power a 254 := by
  have add (m n : Nat) : mul (power a m) (power a n) = power a (m + n) := (power_add a m n).symm
  calc
    inverse a = inverse (power a 1) := by rw [power_one]
    _ = power a 254 := by simp only [inverse, add, Nat.reduceAdd]

/-- The square of a sum is the sum of the squares. -/
theorem power_two_xor (a b : UInt8) : power (a ^^^ b) 2 = power a 2 ^^^ power b 2 := by
  have square (a : UInt8) : power a 2 = mul a a := by
    rw [power, power_one]
  have cross : mul a b ^^^ mul b a = 0 := by rw [mul_comm, UInt8.xor_self]
  rw [square, square, square, mul_xor, mul_xor_right, mul_xor_right]
  calc
    _ = mul a a ^^^ mul b b ^^^ (mul a b ^^^ mul b a) := by ac_rfl
    _ = mul a a ^^^ mul b b := by rw [cross, UInt8.xor_zero]

/-- There are 256 elements. Eight squarings add up, so single bits decide. -/
theorem power_256 (a : UInt8) : power a 256 = a := by
  have squares (a : UInt8) :
      power a 256 = (List.range 8).foldl (fun b _ => power b 2) a := by
    simp only [List.range, List.range.loop, List.foldl, ← power_mul, Nat.reduceMul]
  have single : ∀ b ∈ units, (List.range 8).foldl (fun b _ => power b 2) b = b := by
    decide +kernel
  have sum (steps : List Nat) (a b : UInt8) :
      steps.foldl (fun b _ => power b 2) (a ^^^ b) =
        steps.foldl (fun b _ => power b 2) a ^^^ steps.foldl (fun b _ => power b 2) b := by
    induction steps generalizing a b with
    | nil => rfl
    | cons step steps ih => rw [List.foldl_cons, power_two_xor, ih, List.foldl_cons, List.foldl_cons]
  induction a using byte_induction with
  | zero => exact mul_zero (power 0 255)
  | unit b inside => rw [squares, single b inside]
  | add c d left right => rw [squares, sum, ← squares, ← squares, left, right]

theorem inverse_inverse (a : UInt8) : inverse (inverse a) = a := by
  rw [inverse_eq_power, inverse_eq_power, ← power_mul]
  calc
    power a (254 * 254) = mul (power (power a 256) 252) (power a 4) := by
      rw [← power_mul, ← power_add]
    _ = a := by rw [power_256, ← power_add, power_256]

/-- The affine map of a substitution. -/
def spread (b : UInt8) : UInt8 :=
  b ^^^ rotateLeft b 1 ^^^ rotateLeft b 2 ^^^ rotateLeft b 3 ^^^ rotateLeft b 4 ^^^ 0x63

theorem gather_spread : ∀ b : UInt8,
    rotateLeft (spread b) 1 ^^^ rotateLeft (spread b) 3 ^^^ rotateLeft (spread b) 6 ^^^ 0x05 =
      b := by
  decide +kernel

theorem substitute_eq (b : UInt8) : substitute b = spread (inverse b) :=
  rfl

theorem unsubstitute_substitute (b : UInt8) : unsubstitute (substitute b) = b := by
  rw [unsubstitute, substitute_eq, gather_spread, inverse_inverse]

theorem byTable_table (f : UInt8 → UInt8) (b : UInt8) : byTable (table f) b = f b := by
  have inside : ((List.range 256).map fun n => f (UInt8.ofNat n))[b.toNat]? = some (f b) := by
    rw [List.getElem?_map, List.getElem?_range b.toNat_lt, Option.map_some, UInt8.ofNat_toNat]
  rw [byTable, table, Array.getD_eq_getD_getElem?, List.getElem?_toArray, inside, Option.getD_some]

theorem byTable_unsubstitutions (b : UInt8) :
    byTable unsubstitutions (byTable substitutions b) = b := by
  rw [substitutions, unsubstitutions, byTable_table, byTable_table, unsubstitute_substitute]

end Field

section Columns

/-- A row of four factors times a column. -/
def dot (p q r s : UInt8) (a b c d : UInt8) : UInt8 :=
  mul a p ^^^ mul b q ^^^ mul c r ^^^ mul d s

theorem dot_xor (p q r s a b c d a' b' c' d' : UInt8) :
    dot p q r s (a ^^^ a') (b ^^^ b') (c ^^^ c') (d ^^^ d') =
      dot p q r s a b c d ^^^ dot p q r s a' b' c' d' := by
  simp only [dot, mul_xor]
  ac_rfl

/-- The rows of the matrix turn, and so may the column. -/
theorem mixColumn_eq (p q r s a b c d : UInt8) :
    mixColumn p q r s a b c d =
      [dot p q r s a b c d, dot p q r s b c d a, dot p q r s c d a b, dot p q r s d a b c] := by
  simp only [mixColumn, dot, List.cons.injEq, and_true, true_and]
  exact ⟨by ac_rfl, by ac_rfl, by ac_rfl⟩

/-- The product of the two matrices has one on the diagonal and zero elsewhere. -/
theorem product_factors (x : UInt8) :
    dot 14 11 13 9 (mul x 2) (mul x 1) (mul x 1) (mul x 3) = x ∧
    dot 14 11 13 9 (mul x 3) (mul x 2) (mul x 1) (mul x 1) = 0 ∧
    dot 14 11 13 9 (mul x 1) (mul x 3) (mul x 2) (mul x 1) = 0 ∧
    dot 14 11 13 9 (mul x 1) (mul x 1) (mul x 3) (mul x 2) = 0 := by
  induction x using byte_induction with
  | zero =>
    simp only [dot, zero_mul]
    exact ⟨rfl, rfl, rfl, rfl⟩
  | unit b single =>
    revert b
    decide +kernel
  | add c d left right =>
    obtain ⟨one, two, three, four⟩ := left
    obtain ⟨one', two', three', four'⟩ := right
    simp only [mul_xor c d, dot_xor]
    rw [one, two, three, four, one', two', three', four', UInt8.xor_zero]
    exact ⟨rfl, rfl, rfl, rfl⟩

theorem dot_dot (a b c d : UInt8) :
    dot 14 11 13 9 (dot 2 3 1 1 a b c d) (dot 2 3 1 1 b c d a) (dot 2 3 1 1 c d a b)
      (dot 2 3 1 1 d a b c) = a := by
  obtain ⟨diagonal, -, -, -⟩ := product_factors a
  obtain ⟨-, second, -, -⟩ := product_factors b
  obtain ⟨-, -, third, -⟩ := product_factors c
  obtain ⟨-, -, -, fourth⟩ := product_factors d
  calc
    _ = dot 14 11 13 9 (mul a 2) (mul a 1) (mul a 1) (mul a 3) ^^^
        dot 14 11 13 9 (mul b 3) (mul b 2) (mul b 1) (mul b 1) ^^^
        dot 14 11 13 9 (mul c 1) (mul c 3) (mul c 2) (mul c 1) ^^^
        dot 14 11 13 9 (mul d 1) (mul d 1) (mul d 3) (mul d 2) := by
      simp only [dot, mul_xor]
      ac_rfl
    _ = a := by
      rw [diagonal, second, third, fourth, UInt8.xor_zero, UInt8.xor_zero, UInt8.xor_zero]

/-- A state of whole columns is none or one before others. -/
theorem columns_induction {motive : Bytes → Prop} (none : motive [])
    (column : ∀ a b c d rest, motive rest → motive (a :: b :: c :: d :: rest)) (state : Bytes)
    (whole : state.length % 4 = 0) : motive state := by
  induction state using mixColumns.induct with
  | case1 a b c d rest ih =>
    apply column
    apply ih
    simp only [List.length_cons] at whole
    omega
  | case2 state short =>
    match state, whole, short with
    | [], _, _ => exact none
    | a :: b :: c :: d :: rest, _, short => exact (short a b c d rest rfl).elim

theorem unmixColumns_mixColumns (state : Bytes) (whole : state.length % 4 = 0) :
    unmixColumns (mixColumns state) = state := by
  refine columns_induction (motive := fun state => unmixColumns (mixColumns state) = state)
    rfl ?_ state whole
  intro a b c d rest ih
  rw [mixColumns, mixColumn_eq, List.cons_append, List.cons_append, List.cons_append,
    List.cons_append, List.nil_append, unmixColumns, mixColumn_eq, dot_dot, dot_dot, dot_dot,
    dot_dot, ih]
  rfl

theorem length_mixColumns (state : Bytes) (whole : state.length % 4 = 0) :
    (mixColumns state).length = state.length := by
  refine columns_induction (motive := fun state => (mixColumns state).length = state.length)
    rfl ?_ state whole
  intro a b c d rest ih
  rw [mixColumns, List.length_append, ih, mixColumn]
  simp only [List.length_cons, List.length_nil]
  omega

end Columns

section Rounds

theorem length_shiftRows (state : Bytes) : (shiftRows state).length = 16 := rfl

theorem unshiftRows_shiftRows {state : Bytes} (whole : state.length = 16) :
    unshiftRows (shiftRows state) = state :=
  calc
    unshiftRows (shiftRows state) = (List.range 16).map fun i => state.getD i 0 := rfl
    _ = state := by
      apply List.ext_getElem
      · rw [List.length_map, List.length_range, whole]
      · intro i _ within
        rw [List.getElem_map, List.getElem_range, List.getD_eq_getElem _ _ within]

/-- One round up to the key is undone. -/
theorem unsubstitute_unshiftRows {state : Bytes} (whole : state.length = 16) :
    (unshiftRows (shiftRows (state.map (byTable substitutions)))).map (byTable unsubstitutions) =
      state := by
  have kept : byTable unsubstitutions ∘ byTable substitutions = id := by
    funext b
    rw [Function.comp_apply, byTable_unsubstitutions, id]
  rw [unshiftRows_shiftRows (by rw [List.length_map, whole]), List.map_map, kept, List.map_id]

theorem encryptRounds_cons (state key : Bytes) {later : List Bytes} (more : later ≠ []) :
    encryptRounds state (key :: later) =
      encryptRounds
        (Bytes.xor (mixColumns (shiftRows (state.map (byTable substitutions)))) key) later := by
  rw [encryptRounds]
  exact more

theorem decryptRounds_cons (state key : Bytes) {later : List Bytes} (more : later ≠ []) :
    decryptRounds state (key :: later) =
      (unshiftRows (unmixColumns (Bytes.xor (decryptRounds state later) key))).map
        (byTable unsubstitutions) := by
  rw [decryptRounds]
  exact more

theorem length_mix_shiftRows (state : Bytes) : (mixColumns (shiftRows state)).length = 16 := by
  rw [length_mixColumns _ (by rw [length_shiftRows]), length_shiftRows]

/-- Whatever sixteen-byte keys the rounds use, they keep the length of the block. -/
theorem length_encryptRounds (keys : List Bytes) (sized : ∀ key ∈ keys, key.length = 16)
    {state : Bytes} (whole : state.length = 16) : (encryptRounds state keys).length = 16 := by
  induction keys generalizing state with
  | nil => exact whole
  | cons key later ih =>
    obtain ⟨here, rest⟩ := List.forall_mem_cons.mp sized
    cases later with
    | nil => rw [encryptRounds, Bytes.length_xor, length_shiftRows, here, min_self]
    | cons next later =>
      rw [encryptRounds_cons _ _ (List.cons_ne_nil _ _)]
      apply ih rest
      rw [Bytes.length_xor, length_mix_shiftRows, here, min_self]

theorem decryptRounds_encryptRounds (keys : List Bytes) (sized : ∀ key ∈ keys, key.length = 16)
    {state : Bytes} (whole : state.length = 16) :
    decryptRounds (encryptRounds state keys) keys = state := by
  induction keys generalizing state with
  | nil => rfl
  | cons key later ih =>
    obtain ⟨here, rest⟩ := List.forall_mem_cons.mp sized
    cases later with
    | nil =>
      rw [encryptRounds, decryptRounds,
        Bytes.xor_xor_cancel _ _ (by rw [length_shiftRows, here]), unsubstitute_unshiftRows whole]
    | cons next later =>
      have more : next :: later ≠ [] := List.cons_ne_nil _ _
      rw [encryptRounds_cons _ _ more, decryptRounds_cons _ _ more,
        ih rest (by rw [Bytes.length_xor, length_mix_shiftRows, here, min_self]),
        Bytes.xor_xor_cancel _ _ (by rw [length_mix_shiftRows, here]),
        unmixColumns_mixColumns _ (by rw [length_shiftRows]), unsubstitute_unshiftRows whole]

theorem decryptBlock_encryptBlock (keys : List Bytes) (sized : ∀ key ∈ keys, key.length = 16)
    {block : Bytes} (whole : block.length = 16) :
    decryptBlock keys (encryptBlock keys block) = block := by
  cases keys with
  | nil => rfl
  | cons key later =>
    obtain ⟨here, rest⟩ := List.forall_mem_cons.mp sized
    have mixed : (Bytes.xor block key).length = 16 := by
      rw [Bytes.length_xor, whole, here, min_self]
    rw [encryptBlock, decryptBlock, decryptRounds_encryptRounds later rest mixed,
      Bytes.xor_xor_cancel _ _ (by rw [whole, here])]

theorem length_encryptBlock (keys : List Bytes) (sized : ∀ key ∈ keys, key.length = 16)
    {block : Bytes} (whole : block.length = 16) : (encryptBlock keys block).length = 16 := by
  cases keys with
  | nil => exact whole
  | cons key later =>
    obtain ⟨here, rest⟩ := List.forall_mem_cons.mp sized
    exact length_encryptRounds later rest (by rw [Bytes.length_xor, whole, here, min_self])

end Rounds

section Schedule

variable {keyWords : Nat}

theorem length_turnWord (round : Nat) {word : Bytes} (four : word.length = 4) :
    (turnWord round word).length = 4 := by
  cases word with
  | nil => cases four
  | cons a rest =>
    rw [turnWord, Bytes.length_xor, List.length_map, List.length_append, List.length_singleton,
      ← List.length_cons, four]
    rfl

/-- Every word that is added has four bytes, as those before it have. -/
theorem length_extendKey {words : Array Bytes} (some : 0 < keyWords) (enough : keyWords ≤ words.size)
    (four : ∀ word ∈ words, word.length = 4) :
    ∀ word ∈ extendKey keyWords words words.size, word.length = 4 := by
  have earlier (j : Nat) (within : j < words.size) : (words.getD j []).length = 4 := by
    rw [Array.getD_eq_getD_getElem?, Array.getElem?_eq_getElem within, Option.getD_some]
    exact four _ (Array.getElem_mem within)
  have last := earlier (words.size - 1) (by omega)
  have first := earlier (words.size - keyWords) (by omega)
  intro word inside
  rcases Array.mem_push.mp inside with before | rfl
  · exact four word before
  · rw [Bytes.length_xor, first]
    split
    · rw [length_turnWord _ last, min_self]
    · split
      · rw [List.length_map, last, min_self]
      · rw [last, min_self]

theorem size_extendKey (words : Array Bytes) (i : Nat) :
    (extendKey keyWords words i).size = words.size + 1 :=
  Array.size_push _

theorem extendKey_run (some : 0 < keyWords) (count : Nat) {words : Array Bytes}
    (enough : keyWords ≤ words.size) (four : ∀ word ∈ words, word.length = 4) :
    let run := (List.range' words.size count).foldl (extendKey keyWords) words
    run.size = words.size + count ∧ ∀ word ∈ run, word.length = 4 := by
  induction count generalizing words with
  | zero => exact ⟨rfl, four⟩
  | succ count ih =>
    have more := @size_extendKey keyWords words words.size
    have step := @ih (extendKey keyWords words words.size) (by omega)
      (length_extendKey some enough four)
    rw [more] at step
    rw [List.range'_succ, List.foldl_cons]
    refine ⟨?_, step.2⟩
    have size := step.1
    omega

/-- All round keys are as long as the block. -/
theorem length_of_mem_roundKeys {key round : Bytes} (words : key.length % 4 = 0)
    (some : 4 ≤ key.length) (inside : round ∈ roundKeys key) : round.length = 16 := by
  have count : (key.chunks 4).toArray.size = key.length / 4 := by
    rw [List.size_toArray, Bytes.length_chunks (by decide) words]
  have four : ∀ word ∈ (key.chunks 4).toArray, word.length = 4 := fun word inside =>
    Bytes.length_of_mem_chunks words (List.mem_toArray.mp inside)
  obtain ⟨size, sized⟩ := extendKey_run (by omega : 0 < key.length / 4)
    (4 * (key.length / 4 + 7) - key.length / 4) (le_of_eq count.symm) four
  rw [count] at size sized
  apply Bytes.length_of_mem_chunks _ inside
  rw [Bytes.length_flatten _ fun word inside => sized word (Array.mem_toList_iff.mp inside),
    Array.length_toList, size]
  omega

end Schedule

/-- For keys of whole words AES is lawful, whatever their number. -/
theorem cipher_isLawful {keySize : Nat} (words : keySize % 4 = 0) (some : 4 ≤ keySize) :
    (cipher keySize).IsLawful where
  blockSize_pos := Nat.succ_pos 15
  blockSize_lt := (by decide : 16 < 256)
  length_encrypt := by
    intro key block sized whole
    subst sized
    exact length_encryptBlock _ (fun _ inside => length_of_mem_roundKeys words some inside) whole
  decrypt_encrypt := by
    intro key block sized whole
    subst sized
    exact decryptBlock_encryptBlock _ (fun _ inside => length_of_mem_roundKeys words some inside)
      whole

end RequestSigning.Aes
