import Mathlib
import RequestSigning.Text.Utf8
set_option autoImplicit false

namespace RequestSigning.Utf8

/-- No ASCII character can complete what has been seen: the forms that would be overlong were
refused at their first or second byte. -/
def State.IsBeyondAscii : State → Prop
  | .start => True
  | .inside _ owed low _ value =>
    0x80 ≤ low.toNat ∧ 2 ≤ value * 64 + (low.toNat - 0x80) ∧ (owed ≤ 1 → 2 ≤ value)

theorem isBeyondAscii_start : State.start.IsBeyondAscii :=
  trivial

/-- A first byte of three or four leaves the second a range from `special` on where the rest of
its bits are zero. -/
theorem isBeyondAscii_inside {seen owed value : Nat} {special high : UInt8} {zero : Prop}
    [Decidable zero] (several : 2 ≤ owed) (above : 0x82 ≤ special.toNat)
    (positive : ¬ zero → 1 ≤ value) :
    (State.inside seen owed (if zero then special else 0x80) high value).IsBeyondAscii := by
  by_cases h : zero
  · rw [if_pos h]
    refine ⟨by omega, by omega, by omega⟩
  · rw [if_neg h]
    have := positive h
    refine ⟨by decide, by omega, by omega⟩

theorem isBeyondAscii_of_first {b : UInt8} {state : State} (more : first b = .more state) :
    state.IsBeyondAscii := by
  have apart : ∀ n : UInt8, ¬ b = n → b.toNat ≠ n.toNat := fun _ other same =>
    other (UInt8.toNat_inj.mp same)
  simp only [first, UInt8.lt_iff_toNat_lt, UInt8.reduceToNat] at more
  by_cases ascii : b.toNat < 128
  · simp [ascii] at more
  by_cases continuation : b.toNat < 194
  · simp [ascii, continuation] at more
  simp only [ascii, continuation, ↓reduceIte] at more
  by_cases two : b.toNat < 224
  · simp only [two, ↓reduceIte, Step.more.injEq] at more
    subst more
    refine ⟨by decide, by omega, by omega⟩
  by_cases three : b.toNat < 240
  · simp only [two, three, ↓reduceIte, Step.more.injEq] at more
    subst more
    apply isBeyondAscii_inside (by decide) (by decide)
    intro other
    have := apart 0xE0 other
    simp only [UInt8.reduceToNat] at this
    omega
  by_cases four : b.toNat < 245
  · simp only [two, three, four, ↓reduceIte, Step.more.injEq] at more
    subst more
    apply isBeyondAscii_inside (by decide) (by decide)
    intro other
    have := apart 0xF0 other
    simp only [UInt8.reduceToNat] at this
    omega
  · simp [two, three, four] at more

theorem isBeyondAscii_of_step {state next : State} {b : UInt8} (beyond : state.IsBeyondAscii)
    (more : step state b = .more next) : next.IsBeyondAscii := by
  cases state with
  | start => exact isBeyondAscii_of_first more
  | inside seen owed low high value =>
    obtain ⟨continuation, large, last⟩ := beyond
    simp only [step, UInt8.le_iff_toNat_le] at more
    by_cases within : low.toNat ≤ b.toNat ∧ b.toNat ≤ high.toNat
    · by_cases ends : owed ≤ 1
      · simp [within, ends] at more
      · simp only [within, and_self, ends, ↓reduceIte, Step.more.injEq] at more
        subst more
        refine ⟨by decide, ?_, ?_⟩
        · simp only [UInt8.reduceToNat]
          omega
        · omega
    · simp [within] at more

/-- An ASCII character other than NUL, by which numbers without a character are shown, is the
character of its own byte. -/
theorem eq_of_step_eq_char {state : State} {b : UInt8} {c : Char} (beyond : state.IsBeyondAscii)
    (read : step state b = .char c) (ascii : c.toNat < 128) (nonzero : c.toNat ≠ 0) :
    UInt8.ofNat c.toNat = b := by
  have small : ∀ n : Nat, Char.ofNat n = c → c.toNat = n := by
    intro n same
    have number := Char.toNat_ofNat n
    rw [same] at number
    split at number
    · exact number
    · exact absurd number nonzero
  cases state with
  | start =>
    simp only [step, first] at read
    split_ifs at read
    cases read
    rw [small b.toNat rfl]
    exact UInt8.ofNat_toNat
  | inside seen owed low high value =>
    obtain ⟨continuation, large, last⟩ := beyond
    simp only [step, UInt8.le_iff_toNat_le] at read
    by_cases within : low.toNat ≤ b.toNat ∧ b.toNat ≤ high.toNat
    · by_cases ends : owed ≤ 1
      · simp only [within, and_self, ends, ↓reduceIte, Step.char.injEq] at read
        have := small _ read
        have := last ends
        omega
      · simp [within, ends] at read
    · simp [within] at read

theorem mem_of_mem_decodeLossyFrom {state : State} {bytes : Bytes} {c : Char}
    (beyond : state.IsBeyondAscii) (inside : c ∈ decodeLossyFrom state bytes)
    (ascii : c.toNat < 128) (nonzero : c.toNat ≠ 0) : UInt8.ofNat c.toNat ∈ bytes := by
  have notReplacement : c ≠ replacement := by
    rintro rfl
    exact absurd ascii (by decide)
  fun_induction decodeLossyFrom state bytes with
  | case1 => cases inside
  | case2 => simp [notReplacement] at inside
  | case3 state b rest d read ih =>
    rcases List.mem_cons.mp inside with rfl | inside
    · rw [eq_of_step_eq_char beyond read ascii nonzero]
      exact List.mem_cons_self
    · exact List.mem_cons_of_mem _ (ih isBeyondAscii_start inside)
  | case4 state b rest next more ih =>
    exact List.mem_cons_of_mem _ (ih (isBeyondAscii_of_step beyond more) inside)
  | case5 b rest refused ih =>
    simp only [List.mem_cons, notReplacement, false_or] at inside
    exact List.mem_cons_of_mem _ (ih isBeyondAscii_start inside)
  | case6 b rest seen owed low high value d read refused ih =>
    simp only [List.mem_cons, notReplacement, false_or] at inside
    rcases inside with rfl | inside
    · rw [eq_of_step_eq_char isBeyondAscii_start read ascii nonzero]
      exact List.mem_cons_self
    · exact List.mem_cons_of_mem _ (ih isBeyondAscii_start inside)
  | case7 b rest seen owed low high value next more refused ih =>
    simp only [List.mem_cons, notReplacement, false_or] at inside
    exact List.mem_cons_of_mem _ (ih (isBeyondAscii_of_first more) inside)
  | case8 b rest seen owed low high value refused again ih =>
    simp only [List.mem_cons, notReplacement, false_or] at inside
    exact List.mem_cons_of_mem _ (ih isBeyondAscii_start inside)

/-- Lossy reading makes no ASCII character up. -/
theorem mem_of_mem_decodeLossy {bytes : Bytes} {c : Char} (inside : c ∈ decodeLossy bytes)
    (ascii : c.toNat < 128) (nonzero : c.toNat ≠ 0) : UInt8.ofNat c.toNat ∈ bytes :=
  mem_of_mem_decodeLossyFrom isBeyondAscii_start inside ascii nonzero

theorem decodeLossy_of_ascii {bytes : Bytes} (ascii : ∀ b ∈ bytes, b < 0x80) :
    decodeLossy bytes = bytes.map fun b => Char.ofNat b.toNat := by
  induction bytes with
  | nil => rfl
  | cons b rest ih =>
    have here := ascii b List.mem_cons_self
    have read : step .start b = .char (Char.ofNat b.toNat) := by
      simp only [step, first, here, ↓reduceIte]
    have tail := ih fun b inside => ascii b (List.mem_cons_of_mem _ inside)
    rw [decodeLossy] at tail ⊢
    rw [decodeLossyFrom, read, List.map_cons]
    simp only [tail]

theorem utf8EncodeChar_ofNat : ∀ b : UInt8, b < 0x80 →
    String.utf8EncodeChar (Char.ofNat b.toNat) = [b] := by
  decide +kernel

theorem utf8EncodeChar_of_lt {c : Char} (ascii : c.toNat < 0x80) :
    String.utf8EncodeChar c = [UInt8.ofNat c.toNat] := by
  have same : (UInt8.ofNat c.toNat).toNat = c.toNat :=
    UInt8.toNat_ofNat_of_lt' (Nat.lt_trans ascii (by decide))
  have small : UInt8.ofNat c.toNat < 0x80 := UInt8.lt_iff_toNat_lt.mpr (by rw [same]; exact ascii)
  have encoded := utf8EncodeChar_ofNat _ small
  rwa [same, Char.ofNat_toNat] at encoded

theorem encode_of_ascii {bytes : Bytes} (ascii : ∀ b ∈ bytes, b < 0x80) :
    encode (bytes.map fun b => Char.ofNat b.toNat) = bytes := by
  induction bytes with
  | nil => rfl
  | cons b rest ih =>
    have tail := ih fun b inside => ascii b (List.mem_cons_of_mem _ inside)
    rw [encode] at tail ⊢
    rw [List.map_cons, List.flatMap_cons, utf8EncodeChar_ofNat b (ascii b List.mem_cons_self), tail]
    rfl

theorem encode_eq_map_of_ascii {chars : List Char} (ascii : ∀ c ∈ chars, c.toNat < 0x80) :
    encode chars = chars.map fun c => UInt8.ofNat c.toNat := by
  rw [encode, List.map_eq_flatMap]
  apply List.flatMap_congr
  intro c inside
  exact utf8EncodeChar_of_lt (ascii c inside)

section reading

variable {state next : State} {b : UInt8} {c : Char}

theorem decodeLossyFrom_of_char (read : step state b = .char c) (rest : Bytes) :
    decodeLossyFrom state (b :: rest) = c :: decodeLossyFrom .start rest := by
  cases state <;> simp only [decodeLossyFrom, read]

theorem decodeLossyFrom_of_more (read : step state b = .more next) (rest : Bytes) :
    decodeLossyFrom state (b :: rest) = decodeLossyFrom next rest := by
  cases state <;> simp only [decodeLossyFrom, read]

theorem decodeFrom_of_char (read : step state b = .char c) (index place : Nat) (rest : Bytes) :
    decodeFrom index place state (b :: rest) =
      (decodeFrom (place + 1) (place + 1) .start rest).map (c :: ·) := by
  cases state <;> simp only [decodeFrom, read]

theorem decodeFrom_of_more (read : step state b = .more next) (index place : Nat) (rest : Bytes) :
    decodeFrom index place state (b :: rest) = decodeFrom index (place + 1) next rest := by
  cases state <;> simp only [decodeFrom, read]

end reading

/-- The bytes that complete a character, none too many. -/
inductive Spells : State → Bytes → Char → Prop
  | last {state : State} {b : UInt8} {c : Char} (read : step state b = .char c) :
      Spells state [b] c
  | more {state next : State} {b : UInt8} {bytes : Bytes} {c : Char}
      (read : step state b = .more next) (later : Spells next bytes c) :
      Spells state (b :: bytes) c

namespace Spells

variable {state : State} {bytes : Bytes} {c : Char}

theorem decodeLossyFrom_append (spells : Spells state bytes c) (rest : Bytes) :
    decodeLossyFrom state (bytes ++ rest) = c :: decodeLossyFrom .start rest := by
  induction spells with
  | last read => exact decodeLossyFrom_of_char read rest
  | more read _ ih => rw [List.cons_append, decodeLossyFrom_of_more read, ih]

theorem decodeFrom_append (spells : Spells state bytes c) (index place : Nat) (rest : Bytes) :
    decodeFrom index place state (bytes ++ rest) =
      (decodeFrom (place + bytes.length) (place + bytes.length) .start rest).map (c :: ·) := by
  induction spells generalizing place with
  | last read => exact decodeFrom_of_char read index place rest
  | more read _ ih =>
    rw [List.cons_append, decodeFrom_of_more read, ih, List.length_cons, Nat.add_right_comm,
      Nat.add_assoc]

end Spells

theorem step_inside {seen owed n value : Nat} {low high : UInt8} (small : n < 64)
    (lower : low.toNat ≤ n + 128) (upper : n + 128 ≤ high.toNat) :
    step (.inside seen owed low high value) (UInt8.ofNat (n + 128)) =
      if owed ≤ 1 then .char (Char.ofNat (value * 64 + n))
      else .more (.inside (seen + 1) (owed - 1) 0x80 0xBF (value * 64 + n)) := by
  have number : (UInt8.ofNat (n + 128)).toNat = n + 128 := by
    rw [UInt8.toNat_ofNat']
    omega
  simp only [step, UInt8.le_iff_toNat_le, number, lower, upper, and_self, ↓reduceIte,
    Nat.add_sub_cancel]

/-- The last byte of a character leaves nothing owed. -/
theorem spells_last {seen n value : Nat} {c : Char} (small : n < 64)
    (whole : Char.ofNat (value * 64 + n) = c) (low high : UInt8)
    (lower : low.toNat ≤ n + 128) (upper : n + 128 ≤ high.toNat) :
    Spells (.inside seen 1 low high value) [UInt8.ofNat (n + 128)] c := by
  apply Spells.last
  rw [step_inside small lower upper, if_pos (Nat.le_refl 1), whole]

theorem spells_more {seen owed n value : Nat} {c : Char} {bytes : Bytes} (small : n < 64)
    (later : Spells (.inside (seen + 1) (owed + 1) 0x80 0xBF (value * 64 + n)) bytes c)
    {low high : UInt8} (lower : low.toNat ≤ n + 128) (upper : n + 128 ≤ high.toNat) :
    Spells (.inside seen (owed + 2) low high value) (UInt8.ofNat (n + 128) :: bytes) c := by
  refine Spells.more ?_ later
  rw [step_inside small lower upper, if_neg (by omega)]
  rfl

section leading

variable {m : Nat}

theorem toNat_ofNat_add {k : Nat} (small : m + k < 256) : (UInt8.ofNat (m + k)).toNat = m + k := by
  rw [UInt8.toNat_ofNat']
  omega

theorem step_two (lower : 2 ≤ m) (upper : m < 32) :
    step .start (UInt8.ofNat (m + 192)) = .more (.inside 1 1 0x80 0xBF m) := by
  have number := toNat_ofNat_add (show m + 192 < 256 by omega)
  have several : ¬ m + 192 < 128 := by omega
  have whole : ¬ m + 192 < 194 := by omega
  have two : m + 192 < 224 := by omega
  simp only [step, first, UInt8.lt_iff_toNat_lt, number, UInt8.reduceToNat, several, whole, two,
    ↓reduceIte, Nat.add_sub_cancel]

theorem step_three (upper : m < 16) :
    step .start (UInt8.ofNat (m + 224)) =
      .more (.inside 1 2 (if m = 0 then 0xA0 else 0x80) (if m = 13 then 0x9F else 0xBF) m) := by
  have number := toNat_ofNat_add (show m + 224 < 256 by omega)
  have several : ¬ m + 224 < 128 := by omega
  have whole : ¬ m + 224 < 194 := by omega
  have two : ¬ m + 224 < 224 := by omega
  have three : m + 224 < 240 := by omega
  have least : m + 224 = 224 ↔ m = 0 := by omega
  have surrogate : m + 224 = 237 ↔ m = 13 := by omega
  simp only [step, first, UInt8.lt_iff_toNat_lt, ← UInt8.toNat_inj, number, UInt8.reduceToNat,
    several, whole, two, three, least, surrogate, ↓reduceIte, Nat.add_sub_cancel]

theorem step_four (upper : m < 5) :
    step .start (UInt8.ofNat (m + 240)) =
      .more (.inside 1 3 (if m = 0 then 0x90 else 0x80) (if m = 4 then 0x8F else 0xBF) m) := by
  have number := toNat_ofNat_add (show m + 240 < 256 by omega)
  have several : ¬ m + 240 < 128 := by omega
  have whole : ¬ m + 240 < 194 := by omega
  have two : ¬ m + 240 < 224 := by omega
  have three : ¬ m + 240 < 240 := by omega
  have four : m + 240 < 245 := by omega
  have least : m + 240 = 240 ↔ m = 0 := by omega
  have greatest : m + 240 = 244 ↔ m = 4 := by omega
  simp only [step, first, UInt8.lt_iff_toNat_lt, ← UInt8.toNat_inj, number, UInt8.reduceToNat,
    several, whole, two, three, four, least, greatest, ↓reduceIte, Nat.add_sub_cancel]

end leading

/-- Every character is read from its own bytes. The bounds on the second byte are those of the
numbers that are written in so many bytes, surrogates left out. -/
theorem spells_utf8EncodeChar (c : Char) : Spells .start (String.utf8EncodeChar c) c := by
  have valid : c.val.toNat < 0xD800 ∨ 0xDFFF < c.val.toNat ∧ c.val.toNat < 0x110000 := c.valid
  have number : Char.ofNat c.val.toNat = c := Char.ofNat_toNat c
  unfold String.utf8EncodeChar
  generalize c.val.toNat = n at valid number
  dsimp only
  split
  case isTrue one =>
    apply Spells.last
    have small : (UInt8.ofNat n).toNat = n := by
      rw [UInt8.toNat_ofNat']
      omega
    have ascii : UInt8.ofNat n < 0x80 := by
      rw [UInt8.lt_iff_toNat_lt, small]
      simp only [UInt8.reduceToNat]
      omega
    rw [step, first, if_pos ascii, small, number]
  case isFalse several =>
  split
  case isTrue two =>
    have whole : n / 64 % 32 * 64 + n % 64 = n := by omega
    refine Spells.more (step_two (by omega) (by omega)) ?_
    exact spells_last (by omega) (by rw [whole, number]) _ _ (by simp) (by simp; omega)
  case isFalse more =>
  split
  case isTrue three =>
    have whole : (n / 4096 % 16 * 64 + n / 64 % 64) * 64 + n % 64 = n := by omega
    refine Spells.more (step_three (by omega)) (spells_more (by omega) ?_ ?_ ?_)
    · exact spells_last (by omega) (by rw [whole, number]) _ _ (by simp) (by simp; omega)
    · split <;> simp only [UInt8.reduceToNat] <;> omega
    · split <;> simp only [UInt8.reduceToNat] <;> omega
  case isFalse most =>
    have whole : ((n / 262144 % 8 * 64 + n / 4096 % 64) * 64 + n / 64 % 64) * 64 + n % 64 = n := by
      omega
    refine Spells.more (step_four (by omega))
      (spells_more (by omega) (spells_more (by omega) ?_ ?_ ?_) ?_ ?_)
    · exact spells_last (by omega) (by rw [whole, number]) _ _ (by simp) (by simp; omega)
    · simp
    · simp; omega
    · split <;> simp only [UInt8.reduceToNat] <;> omega
    · split <;> simp only [UInt8.reduceToNat] <;> omega

theorem decodeLossy_encode (chars : List Char) : decodeLossy (encode chars) = chars := by
  rw [decodeLossy]
  induction chars with
  | nil => rfl
  | cons c rest ih =>
    rw [encode] at ih ⊢
    rw [List.flatMap_cons, (spells_utf8EncodeChar c).decodeLossyFrom_append, ih]

theorem decodeFrom_encode (index : Nat) (chars : List Char) :
    decodeFrom index index .start (encode chars) = .ok chars := by
  induction chars generalizing index with
  | nil => rfl
  | cons c rest ih =>
    rw [encode] at ih ⊢
    rw [List.flatMap_cons, (spells_utf8EncodeChar c).decodeFrom_append, ih]
    rfl

theorem decode_encode (chars : List Char) : decode (encode chars) = .ok chars :=
  decodeFrom_encode 0 chars

/-- An ASCII byte is a character of its own, or has no place where it stands. -/
theorem step_of_ascii {state : State} {b : UInt8} (beyond : state.IsBeyondAscii) (ascii : b < 0x80) :
    step state b = .char (Char.ofNat b.toNat) ∨ step state b = .refused := by
  cases state with
  | start => exact .inl (by rw [step, first, if_pos ascii])
  | inside seen owed low high value =>
    have continuation : ¬ (low ≤ b ∧ b ≤ high) := by
      have lower : 0x80 ≤ low.toNat := beyond.1
      have upper : b.toNat < 0x80 := ascii
      rw [UInt8.le_iff_toNat_le]
      omega
    exact .inr (by rw [step, if_neg continuation])

theorem Spells.eq_of_mem {state : State} {bytes : Bytes} {c : Char} {b : UInt8}
    (spells : Spells state bytes c) (beyond : state.IsBeyondAscii) (inside : b ∈ bytes)
    (ascii : b < 0x80) : Char.ofNat b.toNat = c := by
  induction spells with
  | last read =>
    rw [List.mem_singleton] at inside
    subst inside
    rcases step_of_ascii beyond ascii with char | refused
    · rw [char] at read
      exact Step.char.inj read
    · rw [refused] at read
      cases read
  | more read later ih =>
    rcases List.mem_cons.mp inside with rfl | inside
    · rcases step_of_ascii beyond ascii with char | refused
      · rw [char] at read
        cases read
      · rw [refused] at read
        cases read
    · exact ih (isBeyondAscii_of_step beyond read) inside

theorem mem_of_mem_encode {chars : List Char} {b : UInt8} (inside : b ∈ encode chars)
    (ascii : b < 0x80) : Char.ofNat b.toNat ∈ chars := by
  obtain ⟨c, listed, inside⟩ := List.mem_flatMap.mp inside
  rwa [(spells_utf8EncodeChar c).eq_of_mem isBeyondAscii_start inside ascii]

end RequestSigning.Utf8

namespace RequestSigning.Bytes

theorem ofString_append (left right : String) :
    ofString (left ++ right) = ofString left ++ ofString right := by
  simp only [ofString, Utf8.encode, String.toList_append, List.flatMap_append]

/-- ASCII is kept by reading it as text. -/
theorem ofString_toStringLossy {bytes : Bytes} (ascii : ∀ b ∈ bytes, b < 0x80) :
    ofString bytes.toStringLossy = bytes := by
  rw [ofString, toStringLossy, String.toList_ofList, Utf8.decodeLossy_of_ascii ascii,
    Utf8.encode_of_ascii ascii]

theorem ofString_subset {part whole : String} (inside : part.toList ⊆ whole.toList) :
    ofString part ⊆ ofString whole := by
  intro b member
  obtain ⟨c, listed, encoded⟩ := List.mem_flatMap.mp member
  exact List.mem_flatMap.mpr ⟨c, inside listed, encoded⟩

/-- Every text is read back from its bytes. -/
@[simp] theorem toStringLossy_ofString (text : String) : (ofString text).toStringLossy = text := by
  rw [ofString, toStringLossy, Utf8.decodeLossy_encode, String.ofList_toList]

end RequestSigning.Bytes
