import RequestSigning.Proofs.Except
import RequestSigning.Proofs.Text.Utf8
set_option autoImplicit false

namespace RequestSigning.Utf8

section following

variable {seen owed value : Nat} {low high b : UInt8} {bytes : Bytes} {c : Char}

theorem within_of_step (accepted : step (.inside seen owed low high value) b ≠ .refused) :
    low ≤ b ∧ b ≤ high := by
  by_contra outside
  rw [step, if_neg outside] at accepted
  exact accepted rfl

/-- A byte that goes on with a character holds six bits of it. -/
theorem exists_continuation (lower : 0x80 ≤ low.toNat) (upper : high.toNat ≤ 0xBF)
    (accepted : step (.inside seen owed low high value) b ≠ .refused) :
    ∃ n, b = UInt8.ofNat (n + 128) ∧ n < 64 ∧ low.toNat ≤ n + 128 ∧ n + 128 ≤ high.toNat := by
  have within := within_of_step accepted
  rw [UInt8.le_iff_toNat_le, UInt8.le_iff_toNat_le] at within
  refine ⟨b.toNat - 128, ?_, by omega, by omega, by omega⟩
  rw [Nat.sub_add_cancel (by omega), UInt8.ofNat_toNat]

theorem Spells.exists_last (spells : Spells (.inside seen 1 low high value) bytes c)
    (lower : 0x80 ≤ low.toNat) (upper : high.toNat ≤ 0xBF) :
    ∃ n, bytes = [UInt8.ofNat (n + 128)] ∧ n < 64 ∧ c = Char.ofNat (value * 64 + n) := by
  cases spells with
  | last read =>
    obtain ⟨n, rfl, small, least, most⟩ :=
      exists_continuation lower upper (by rw [read]; exact nofun)
    rw [step_inside small least most, if_pos (Nat.le_refl 1)] at read
    cases read
    exact ⟨n, rfl, small, rfl⟩
  | more read later =>
    obtain ⟨n, rfl, small, least, most⟩ :=
      exists_continuation lower upper (by rw [read]; exact nofun)
    rw [step_inside small least most, if_pos (Nat.le_refl 1)] at read
    cases read

theorem Spells.exists_more (spells : Spells (.inside seen (owed + 2) low high value) bytes c)
    (lower : 0x80 ≤ low.toNat) (upper : high.toNat ≤ 0xBF) :
    ∃ n later, bytes = UInt8.ofNat (n + 128) :: later ∧ n < 64 ∧ low.toNat ≤ n + 128 ∧
      n + 128 ≤ high.toNat ∧
      Spells (.inside (seen + 1) (owed + 1) 0x80 0xBF (value * 64 + n)) later c := by
  have several : ¬ owed + 2 ≤ 1 := by omega
  cases spells with
  | last read =>
    obtain ⟨n, rfl, small, least, most⟩ :=
      exists_continuation lower upper (by rw [read]; exact nofun)
    rw [step_inside small least most, if_neg several] at read
    cases read
  | more read later =>
    obtain ⟨n, rfl, small, least, most⟩ :=
      exists_continuation lower upper (by rw [read]; exact nofun)
    rw [step_inside small least most, if_neg several] at read
    cases read
    exact ⟨n, _, rfl, small, least, most, later⟩

end following

/-- A first byte after which more are owed is one of two, three or four. -/
theorem exists_leading {b : UInt8} {next : State} (more : step .start b = .more next) :
    ∃ m, (b = UInt8.ofNat (m + 192) ∧ 2 ≤ m ∧ m < 32) ∨ (b = UInt8.ofNat (m + 224) ∧ m < 16) ∨
      (b = UInt8.ofNat (m + 240) ∧ m < 5) := by
  have rebuilt (k : Nat) (least : k ≤ b.toNat) : b = UInt8.ofNat (b.toNat - k + k) := by
    rw [Nat.sub_add_cancel least, UInt8.ofNat_toNat]
  simp only [step, first, UInt8.lt_iff_toNat_lt, UInt8.reduceToNat] at more
  by_cases ascii : b.toNat < 128
  · simp [ascii] at more
  by_cases continuation : b.toNat < 194
  · simp [ascii, continuation] at more
  by_cases two : b.toNat < 224
  · exact ⟨b.toNat - 192, .inl ⟨rebuilt 192 (by omega), by omega, by omega⟩⟩
  by_cases three : b.toNat < 240
  · exact ⟨b.toNat - 224, .inr (.inl ⟨rebuilt 224 (by omega), by omega⟩)⟩
  by_cases four : b.toNat < 245
  · exact ⟨b.toNat - 240, .inr (.inr ⟨rebuilt 240 (by omega), by omega⟩)⟩
  · simp [ascii, continuation, two, three, four] at more

section numbers

variable {m k l n : Nat}

theorem toNat_val_ofNat (valid : n < 0xD800 ∨ 0xDFFF < n ∧ n < 0x110000) :
    (Char.ofNat n).val.toNat = n := by
  have number := Char.toNat_ofNat n
  rwa [if_pos valid] at number

theorem utf8EncodeChar_two (least : 2 ≤ m) (most : m < 32) (last : n < 64) :
    String.utf8EncodeChar (Char.ofNat (m * 64 + n)) =
      [UInt8.ofNat (m + 192), UInt8.ofNat (n + 128)] := by
  rw [String.utf8EncodeChar, toNat_val_ofNat (by omega), if_neg (by omega), if_pos (by omega)]
  have leading : (m * 64 + n) / 64 % 32 = m := by omega
  have trailing : (m * 64 + n) % 64 = n := by omega
  rw [leading, trailing]

/-- Numbers that two bytes can hold, and surrogates, are left out. -/
theorem utf8EncodeChar_three (most : m < 16) (second : k < 64) (last : n < 64)
    (overlong : m = 0 → 32 ≤ k) (surrogate : m = 13 → k < 32) :
    String.utf8EncodeChar (Char.ofNat ((m * 64 + k) * 64 + n)) =
      [UInt8.ofNat (m + 224), UInt8.ofNat (k + 128), UInt8.ofNat (n + 128)] := by
  rw [String.utf8EncodeChar, toNat_val_ofNat (by omega), if_neg (by omega), if_neg (by omega),
    if_pos (by omega)]
  have leading : ((m * 64 + k) * 64 + n) / 4096 % 16 = m := by omega
  have middle : ((m * 64 + k) * 64 + n) / 64 % 64 = k := by omega
  have trailing : ((m * 64 + k) * 64 + n) % 64 = n := by omega
  rw [leading, middle, trailing]

/-- Numbers that three bytes can hold, and those above every character, are left out. -/
theorem utf8EncodeChar_four (most : m < 5) (second : k < 64) (third : l < 64) (last : n < 64)
    (overlong : m = 0 → 16 ≤ k) (above : m = 4 → k < 16) :
    String.utf8EncodeChar (Char.ofNat (((m * 64 + k) * 64 + l) * 64 + n)) =
      [UInt8.ofNat (m + 240), UInt8.ofNat (k + 128), UInt8.ofNat (l + 128),
        UInt8.ofNat (n + 128)] := by
  rw [String.utf8EncodeChar, toNat_val_ofNat (by omega), if_neg (by omega), if_neg (by omega),
    if_neg (by omega)]
  have leading : (((m * 64 + k) * 64 + l) * 64 + n) / 262144 % 8 = m := by omega
  have second : (((m * 64 + k) * 64 + l) * 64 + n) / 4096 % 64 = k := by omega
  have third : (((m * 64 + k) * 64 + l) * 64 + n) / 64 % 64 = l := by omega
  have trailing : (((m * 64 + k) * 64 + l) * 64 + n) % 64 = n := by omega
  rw [leading, second, third, trailing]

end numbers

/-- A character is read from no other bytes than its own. -/
theorem Spells.utf8EncodeChar_eq {bytes : Bytes} {c : Char} (spells : Spells .start bytes c) :
    String.utf8EncodeChar c = bytes := by
  cases spells with
  | @last _ b _ read =>
    simp only [step, first] at read
    split_ifs at read with ascii
    cases read
    exact utf8EncodeChar_ofNat b ascii
  | more read later =>
    obtain ⟨m, ⟨rfl, least, most⟩ | ⟨rfl, most⟩ | ⟨rfl, most⟩⟩ := exists_leading read
    · rw [step_two least most] at read
      cases read
      obtain ⟨n, rfl, last, rfl⟩ := later.exists_last (by decide) (by decide)
      exact utf8EncodeChar_two least most last
    · rw [step_three most] at read
      cases read
      obtain ⟨k, _, rfl, second, lower, upper, later⟩ :=
        later.exists_more (by split <;> decide) (by split <;> decide)
      obtain ⟨n, rfl, last, rfl⟩ := later.exists_last (by decide) (by decide)
      apply utf8EncodeChar_three most second last
      · rintro rfl
        simp only [↓reduceIte, UInt8.reduceToNat] at lower
        omega
      · rintro rfl
        simp only [↓reduceIte, UInt8.reduceToNat] at upper
        omega
    · rw [step_four most] at read
      cases read
      obtain ⟨k, _, rfl, second, lower, upper, later⟩ :=
        later.exists_more (by split <;> decide) (by split <;> decide)
      obtain ⟨l, _, rfl, third, -, -, later⟩ := later.exists_more (by decide) (by decide)
      obtain ⟨n, rfl, last, rfl⟩ := later.exists_last (by decide) (by decide)
      apply utf8EncodeChar_four most second third last
      · rintro rfl
        simp only [↓reduceIte, UInt8.reduceToNat] at lower
        omega
      · rintro rfl
        simp only [↓reduceIte, UInt8.reduceToNat] at upper
        omega

/-- What is read strictly is what was written. `seen` are the bytes that have led to the state. -/
theorem encode_of_decodeFrom {index next : Nat} {state : State} {bytes seen : Bytes}
    {chars : List Char}
    (whole : ∀ later c, Spells state later c → String.utf8EncodeChar c = seen ++ later)
    (read : decodeFrom index next state bytes = .ok chars) : encode chars = seen ++ bytes := by
  have afresh : ∀ later c, Spells .start later c → String.utf8EncodeChar c = [] ++ later :=
    fun _ _ spells => spells.utf8EncodeChar_eq
  fun_induction decodeFrom index next state bytes generalizing seen chars with
  | case1 =>
    cases read
    -- Nothing can have led to the start: a letter that is read from there is its own byte.
    have letter : [65] = seen ++ [65] := whole [65] 'A' (.last (by decide))
    have none : seen = [] := by simpa using letter
    rw [none]
    rfl
  | case2 => cases read
  | case3 index next state b rest c char ih =>
    obtain ⟨chars, later, rfl⟩ := Except.map_eq_ok read
    have tail : encode chars = [] ++ rest := ih afresh later
    rw [encode, List.nil_append] at tail
    rw [encode, List.flatMap_cons, whole [b] c (.last char), tail, List.append_assoc,
      List.singleton_append]
  | case4 index next state b rest reached more ih =>
    have longer : ∀ later c, Spells reached later c →
        String.utf8EncodeChar c = (seen ++ [b]) ++ later := by
      intro later c spells
      rw [whole (b :: later) c (.more more spells), List.append_assoc, List.singleton_append]
    rw [ih longer read, List.append_assoc, List.singleton_append]
  | case5 => cases read

theorem decode_eq_ok_iff {bytes : Bytes} {chars : List Char} :
    decode bytes = .ok chars ↔ encode chars = bytes := by
  have whole : ∀ later c, Spells .start later c → String.utf8EncodeChar c = [] ++ later :=
    fun _ _ spells => spells.utf8EncodeChar_eq
  refine ⟨fun read => encode_of_decodeFrom whole read, ?_⟩
  rintro rfl
  exact decode_encode chars

/-- Where lossy reading replaces nothing, it is strict reading. -/
theorem decodeFrom_of_not_mem {state : State} {bytes : Bytes}
    (outside : replacement ∉ decodeLossyFrom state bytes) (index place : Nat) :
    decodeFrom index place state bytes = .ok (decodeLossyFrom state bytes) := by
  fun_induction decodeLossyFrom state bytes generalizing index place with
  | case1 => rfl
  | case3 state b rest c read ih =>
    rw [decodeFrom_of_char read, ih fun inside => outside (List.mem_cons_of_mem _ inside)]
    rfl
  | case4 state b rest next more ih => rw [decodeFrom_of_more more, ih outside]
  | case2 | case5 | case6 | case7 | case8 => exact absurd List.mem_cons_self outside

theorem encode_decodeLossy {bytes : Bytes} (outside : replacement ∉ decodeLossy bytes) :
    encode (decodeLossy bytes) = bytes :=
  decode_eq_ok_iff.mp (decodeFrom_of_not_mem outside 0 0)

end RequestSigning.Utf8
