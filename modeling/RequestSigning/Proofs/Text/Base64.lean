import Mathlib
import RequestSigning.Text.Base64
set_option autoImplicit false

namespace RequestSigning.Base64

/-- A symbol of six bits stands for them alone. -/
theorem value?_symbol : ∀ n : UInt8, n < 64 → value? (symbol n) = some n := by
  decide +kernel

theorem symbol_ne_padding : ∀ n : UInt8, symbol n ≠ padding := by
  decide +kernel

theorem symbol_lt : ∀ n : UInt8, symbol n < 0x80 := by
  decide +kernel

theorem read_symbol (offset : Nat) (n : UInt8) (small : n < 64) : read offset (symbol n) = .ok n := by
  simp only [read, value?_symbol n small]

theorem shiftRight_two_lt : ∀ a : UInt8, a >>> 2 < 64 := by
  decide +kernel

theorem and_lt : ∀ c : UInt8, c &&& 63 < 64 := by
  decide +kernel

theorem or_lt {m n : UInt8} (left : m < 64) (right : n < 64) : m ||| n < 64 := by
  have left : m.toNat < 2 ^ 6 := left
  have right : n.toNat < 2 ^ 6 := right
  have joined := Nat.or_lt_two_pow left right
  rw [← UInt8.toNat_or] at joined
  exact joined

theorem second_lt (a b : UInt8) : (a &&& 3) <<< 4 ||| b >>> 4 < 64 := by
  have high : ∀ a : UInt8, (a &&& 3) <<< 4 < 64 := by decide +kernel
  have low : ∀ b : UInt8, b >>> 4 < 64 := by decide +kernel
  exact or_lt (high a) (low b)

theorem third_lt (b c : UInt8) : (b &&& 15) <<< 2 ||| c >>> 6 < 64 := by
  have high : ∀ b : UInt8, (b &&& 15) <<< 2 < 64 := by decide +kernel
  have low : ∀ c : UInt8, c >>> 6 < 64 := by decide +kernel
  exact or_lt (high b) (low c)

/-- Four times six bits make up the three bytes from which they were cut. -/
theorem join_cut (a b c : UInt8) :
    join (a >>> 2) ((a &&& 3) <<< 4 ||| b >>> 4) ((b &&& 15) <<< 2 ||| c >>> 6) (c &&& 63) =
      [a, b, c] := by
  simp only [join, List.cons.injEq, and_true]
  refine ⟨?_, ?_, ?_⟩ <;>
  · apply UInt8.toBitVec_inj.mp
    apply BitVec.eq_of_getElem_eq
    intro i small
    simp only [UInt8.toBitVec_or, UInt8.toBitVec_shiftLeft, UInt8.toBitVec_shiftRight,
      UInt8.toBitVec_and]
    interval_cases i <;> simp

theorem second_zero (a : UInt8) : (a &&& 3) <<< 4 ||| (0 : UInt8) >>> 4 = (a &&& 3) <<< 4 :=
  UInt8.or_zero

theorem third_zero (b : UInt8) : (b &&& 15) <<< 2 ||| (0 : UInt8) >>> 6 = (b &&& 15) <<< 2 :=
  UInt8.or_zero

theorem second_whole : ∀ a : UInt8, (a &&& 3) <<< 4 &&& 15 = 0 := by
  decide +kernel

theorem third_whole : ∀ b : UInt8, (b &&& 15) <<< 2 &&& 3 = 0 := by
  decide +kernel

theorem length_encode (bytes : Bytes) : (encode bytes).length % 4 = 0 := by
  fun_induction encode bytes with
  | case1 a b c rest ih =>
    simp only [List.length_cons]
    omega
  | case2 a b => simp only [List.length_cons, List.length_nil]
  | case3 a => simp only [List.length_cons, List.length_nil]
  | case4 => rfl

/-- Base64 is made of symbols and padding. -/
theorem of_mem_encode (holds : UInt8 → Prop) (symbols : ∀ n, holds (symbol n))
    (pads : holds padding) {bytes : Bytes} : ∀ b ∈ encode bytes, holds b := by
  fun_induction encode bytes with
  | case1 a b c rest ih => simp only [List.forall_mem_cons, symbols, true_and]; exact ih
  | case2 a b => simp [symbols, pads]
  | case3 a => simp [symbols, pads]
  | case4 => exact List.forall_mem_nil _

theorem lt_of_mem_encode {bytes : Bytes} {b : UInt8} (inside : b ∈ encode bytes) : b < 0x80 :=
  of_mem_encode (· < 0x80) symbol_lt (by decide) b inside

theorem quote_not_mem_encode (bytes : Bytes) : 34 ∉ encode bytes := by
  have symbols : ∀ n : UInt8, symbol n ≠ 34 := by decide +kernel
  intro inside
  exact of_mem_encode (· ≠ 34) symbols (by decide) _ inside rfl

section reading

variable (offset : Nat)

theorem filterMap_value? (digits : List UInt8) (small : ∀ n ∈ digits, n < 64) :
    (digits.map symbol).filterMap value? = digits := by
  induction digits with
  | nil => rfl
  | cons n rest ih =>
    rw [List.map_cons, List.filterMap_cons, value?_symbol n (small n List.mem_cons_self)]
    simp only [ih fun n inside => small n (List.mem_cons_of_mem _ inside)]

/-- Padding that begins at the third place at the earliest is told from the symbols before it. -/
theorem splitPadding_append (digits : List UInt8) (small : ∀ n ∈ digits, n < 64) (pads index : Nat)
    (late : pads = 0 ∨ 2 ≤ index + digits.length) :
    splitPadding offset index (digits.map symbol ++ List.replicate pads padding) =
      .ok (digits.map symbol, pads) := by
  induction digits generalizing index with
  | nil =>
    cases pads with
    | zero => rfl
    | succ pads =>
      have late : ¬ index < 2 := by
        simp only [List.length_nil] at late
        omega
      simp [List.replicate_succ, splitPadding, late]
  | cons n rest ih =>
    have later : pads = 0 ∨ 2 ≤ index + 1 + rest.length := by
      simp only [List.length_cons] at late
      omega
    rw [List.map_cons, List.cons_append, splitPadding, if_neg (symbol_ne_padding n),
      read_symbol _ n (small n List.mem_cons_self),
      ih (fun n inside => small n (List.mem_cons_of_mem _ inside)) (index + 1) later]
    rfl

theorem decodeLast_four {a b c d : UInt8} (ha : a < 64) (hb : b < 64) (hc : c < 64) (hd : d < 64) :
    decodeLast offset [symbol a, symbol b, symbol c, symbol d] = .ok (join a b c d) := by
  have small : ∀ n ∈ [a, b, c, d], n < 64 := by simp [ha, hb, hc, hd]
  have split := splitPadding_append offset [a, b, c, d] small 0 0 (.inl rfl)
  have values := filterMap_value? [a, b, c, d] small
  simp only [List.map_cons, List.map_nil, List.replicate_zero, List.append_nil] at split values
  simp [decodeLast, split, values]

theorem decodeLast_three {a b c : UInt8} (ha : a < 64) (hb : b < 64) (hc : c < 64)
    (whole : c &&& 3 = 0) :
    decodeLast offset [symbol a, symbol b, symbol c, padding] = .ok ((join a b c 0).take 2) := by
  have small : ∀ n ∈ [a, b, c], n < 64 := by simp [ha, hb, hc]
  have split := splitPadding_append offset [a, b, c] small 1 0 (.inr (by simp))
  have values := filterMap_value? [a, b, c] small
  simp only [List.map_cons, List.map_nil, List.replicate_one, List.cons_append,
    List.nil_append] at split values
  simp [decodeLast, split, values, whole]

theorem decodeLast_two {a b : UInt8} (ha : a < 64) (hb : b < 64) (whole : b &&& 15 = 0) :
    decodeLast offset [symbol a, symbol b, padding, padding] = .ok ((join a b 0 0).take 1) := by
  have small : ∀ n ∈ [a, b], n < 64 := by simp [ha, hb]
  have split := splitPadding_append offset [a, b] small 2 0 (.inr (by simp))
  have values := filterMap_value? [a, b] small
  simp only [List.map_cons, List.map_nil, List.replicate_succ, List.replicate_zero, List.cons_append,
    List.nil_append] at split values
  simp [decodeLast, split, values, whole]

theorem decodeFrom_of_length_le (group : Bytes) (short : group.length ≤ 4) :
    decodeFrom offset group = decodeLast offset group := by
  match group with
  | a :: b :: c :: d :: e :: rest =>
    simp only [List.length_cons] at short
    omega
  | [] | [_] | [_, _] | [_, _, _] | [_, _, _, _] => rfl

theorem decodeFrom_encode (bytes : Bytes) : decodeFrom offset (encode bytes) = .ok bytes := by
  fun_induction encode bytes generalizing offset with
  | case1 a b c rest ih =>
    have last := decodeLast_four offset (shiftRight_two_lt a) (second_lt a b) (third_lt b c) (and_lt c)
    rw [join_cut] at last
    specialize ih (offset + 4)
    cases encoded : encode rest with
    | nil =>
      have : rest = [] := by
        rw [encoded] at ih
        cases ih
        rfl
      rw [this]
      exact last
    | cons e tail =>
      rw [encoded] at ih
      rw [decodeFrom, read_symbol _ _ (shiftRight_two_lt a), read_symbol _ _ (second_lt a b),
        read_symbol _ _ (third_lt b c), read_symbol _ _ (and_lt c)]
      simp only [ih, Except.map, join_cut, List.cons_append, List.nil_append]
  | case2 a b =>
    have cut := join_cut a b 0
    rw [third_zero] at cut
    rw [decodeFrom_of_length_le _ _ (by simp),
      decodeLast_three offset (shiftRight_two_lt a) (second_lt a b) (third_zero b ▸ third_lt b 0)
        (third_whole b)]
    exact congrArg (fun bytes => Except.ok (bytes.take 2)) cut
  | case3 a =>
    have cut := join_cut a 0 0
    rw [second_zero] at cut
    rw [decodeFrom_of_length_le _ _ (by simp),
      decodeLast_two offset (shiftRight_two_lt a) (second_zero a ▸ second_lt a 0) (second_whole a)]
    exact congrArg (fun bytes => Except.ok (bytes.take 1)) cut
  | case4 => rfl

end reading

/-- What was encoded is read back. -/
theorem decode_encode (bytes : Bytes) : decode (encode bytes) = .ok bytes := by
  have whole := length_encode bytes
  unfold decode
  split
  · rw [if_neg (by omega), decodeFrom_encode]
  · rename_i nothing
    rw [List.getLast?_eq_none_iff] at nothing
    have read := decodeFrom_encode 0 bytes
    rw [nothing] at read
    exact read

end RequestSigning.Base64
