import RequestSigning.Der.Time
import RequestSigning.Proofs.Der.Reader
set_option autoImplicit false

namespace RequestSigning.Der.Time

variable {bytes : Bytes} {n year : Nat} {moment : DateTime}

section Decimals

theorem digits_succ (width n : Nat) :
    digits (width + 1) n = digits width (n / 10) ++ [UInt8.ofNat (48 + n % 10)] := by
  have small : 48 + n % 10 < 0xD800 := by omega
  have valid : (48 + n % 10).isValidChar := .inl small
  have code : (Char.ofNat (48 + n % 10)).toNat = 48 + n % 10 := by
    rw [Char.ofNat, dif_pos valid]
    rfl
  rw [digits, DateTime.digits, List.map_append, List.map_singleton, code, digits]

@[simp] theorem length_digits (width n : Nat) : (digits width n).length = width := by
  induction width generalizing n with
  | zero => rfl
  | succ width ih => rw [digits_succ, List.length_append, ih, List.length_singleton]

theorem decimal?_append_singleton {b : UInt8} :
    decimal? (bytes ++ [b]) = some n ↔
      ∃ m, decimal? bytes = some m ∧ 48 ≤ b.toNat ∧ b.toNat ≤ 57 ∧ m * 10 + (b.toNat - 48) = n := by
  simp only [decimal?, List.all_append, List.all_cons, List.all_nil, Bool.and_true,
    Bool.and_eq_true, decide_eq_true_eq, List.foldl_append, List.foldl_cons, List.foldl_nil,
    Option.ite_none_right_eq_some, Option.some.injEq, UInt8.le_iff_toNat_le, UInt8.reduceToNat]
  constructor
  · rintro ⟨⟨all, low, high⟩, rfl⟩
    exact ⟨_, ⟨all, rfl⟩, low, high, rfl⟩
  · rintro ⟨_, ⟨all, rfl⟩, low, high, rfl⟩
    exact ⟨⟨all, low, high⟩, rfl⟩

/-- As many digits as there are stand for one number, leading zeros included. -/
theorem decimal?_eq_some_iff :
    decimal? bytes = some n ↔ n < 10 ^ bytes.length ∧ bytes = digits bytes.length n := by
  induction bytes using List.reverseRecOn generalizing n with
  | nil =>
    have zero : decimal? [] = some 0 := rfl
    rw [zero, Option.some.injEq, List.length_nil, Nat.pow_zero, Nat.lt_one_iff]
    exact ⟨fun same => ⟨same.symm, rfl⟩, fun same => same.1.symm⟩
  | append_singleton bytes b ih =>
    rw [decimal?_append_singleton, List.length_append, List.length_singleton, digits_succ,
      Nat.pow_succ]
    constructor
    · rintro ⟨m, read, low, high, rfl⟩
      obtain ⟨below, same⟩ := ih.mp read
      have tens : (m * 10 + (b.toNat - 48)) / 10 = m := by omega
      have last : UInt8.ofNat (48 + (m * 10 + (b.toNat - 48)) % 10) = b := by
        apply UInt8.toNat_inj.mp
        rw [UInt8.toNat_ofNat']
        omega
      exact ⟨by omega, by rw [tens, last, ← same]⟩
    · rintro ⟨below, same⟩
      obtain ⟨front, last⟩ := List.append_inj' same rfl
      obtain rfl := (List.cons.inj last).1
      have digit : (UInt8.ofNat (48 + n % 10)).toNat = 48 + n % 10 := by
        rw [UInt8.toNat_ofNat']
        omega
      refine ⟨n / 10, ih.mpr ⟨by omega, front⟩, ?_⟩
      rw [digit]
      omega

theorem decimal?_digits {width : Nat} (small : n < 10 ^ width) :
    decimal? (digits width n) = some n := by
  rw [decimal?_eq_some_iff, length_digits]
  exact ⟨small, rfl⟩

theorem digits_two (n : Nat) :
    digits 2 n = [UInt8.ofNat (48 + n / 10 % 10), UInt8.ofNat (48 + n % 10)] := by
  rw [digits_succ, digits_succ]
  rfl

theorem decimal?_pair (small : n < 100) :
    decimal? [UInt8.ofNat (48 + n / 10 % 10), UInt8.ofNat (48 + n % 10)] = some n := by
  rw [← digits_two]
  exact decimal?_digits small

/-- Two digits do not tell centuries apart. -/
theorem digits_two_mod (n : Nat) : digits 2 (n % 100) = digits 2 n := by
  have tens : n % 100 / 10 % 10 = n / 10 % 10 := by omega
  have last : n % 100 % 10 = n % 10 := by omega
  rw [digits_two, digits_two, tens, last]

end Decimals

section Fields

/-- Month to second in ten digits, and the letter Z. -/
def fields (t : DateTime) : Bytes :=
  digits 2 t.month ++ (digits 2 t.day ++ (digits 2 t.hour ++ (digits 2 t.minute ++
    (digits 2 t.second ++ [90]))))

theorem content_eq (yearDigits : Nat) (t : DateTime) :
    content yearDigits t = digits yearDigits t.year ++ fields t := by
  simp only [content, fields, List.append_assoc]

theorem length_fields (t : DateTime) : (fields t).length = 11 := by
  simp only [fields, List.length_append, length_digits, List.length_singleton]

theorem length_content (yearDigits : Nat) (t : DateTime) :
    (content yearDigits t).length = yearDigits + 11 := by
  rw [content_eq, List.length_append, length_digits, length_fields]

theorem drop_eq_digits_append {i : Nat} (inside : i + 2 ≤ bytes.length)
    (read : decimal? ((bytes.drop i).take 2) = some n) :
    bytes.drop i = digits 2 n ++ bytes.drop (i + 2) := by
  have two : ((bytes.drop i).take 2).length = 2 := by
    rw [List.length_take, List.length_drop]
    omega
  obtain ⟨-, same⟩ := decimal?_eq_some_iff.mp read
  rw [two] at same
  rw [← same, ← List.drop_drop, List.take_append_drop]

theorem daysInMonth_le (year month : Nat) : DateTime.daysInMonth year month ≤ 31 := by
  rw [DateTime.daysInMonth]
  split
  · split <;> decide
  · split <;> decide

theorem guard_bind_eq_some_iff {α : Type} {p : Prop} [Decidable p] {next : Unit → Option α}
    {value : α} : (guard p >>= next) = some value ↔ p ∧ next () = some value := by
  by_cases holds : p <;> simp [guard, holds]

/-- A moment is read from its ten digits and from nothing else. -/
theorem afterYear?_eq_some_iff :
    afterYear? year bytes = some moment ↔
      moment.IsValid ∧ moment.year = year ∧ bytes = fields moment := by
  constructor
  · intro read
    rw [afterYear?, guard_bind_eq_some_iff] at read
    simp only [Option.bind_eq_bind, Option.bind_eq_some_iff, Option.ite_none_right_eq_some,
      Option.some.injEq] at read
    obtain ⟨ended, month, monthRead, day, dayRead, hour, hourRead, minute, minuteRead,
      second, secondRead, valid, rfl⟩ := read
    refine ⟨valid, rfl, ?_⟩
    have total : bytes.length = 11 := by
      have length := congrArg List.length ended
      rw [List.length_drop, List.length_singleton] at length
      omega
    calc
      bytes = bytes.drop 0 := rfl
      _ = digits 2 month ++ bytes.drop 2 := drop_eq_digits_append (by omega) monthRead
      _ = digits 2 month ++ (digits 2 day ++ bytes.drop 4) := by
        rw [drop_eq_digits_append (by omega) dayRead]
      _ = digits 2 month ++ (digits 2 day ++ (digits 2 hour ++ bytes.drop 6)) := by
        rw [drop_eq_digits_append (by omega) hourRead]
      _ = digits 2 month ++ (digits 2 day ++ (digits 2 hour ++ (digits 2 minute ++
          bytes.drop 8))) := by
        rw [drop_eq_digits_append (by omega) minuteRead]
      _ = fields ⟨year, month, day, hour, minute, second⟩ := by
        rw [drop_eq_digits_append (by omega) secondRead, ended]
        rfl
  · rintro ⟨valid, rfl, rfl⟩
    obtain ⟨-, -, -, month, -, day, hour, minute, second⟩ := id valid
    have days := daysInMonth_le moment.year moment.month
    rw [afterYear?, guard_bind_eq_some_iff]
    simp only [fields, digits_two, List.cons_append, List.nil_append, Nat.reduceMul,
      List.drop_succ_cons, List.drop_zero, List.take_succ_cons, List.take_zero, true_and]
    rw [decimal?_pair (n := moment.month) (by omega), decimal?_pair (n := moment.day) (by omega),
      decimal?_pair (n := moment.hour) (by omega), decimal?_pair (n := moment.minute) (by omega),
      decimal?_pair (n := moment.second) (by omega)]
    exact if_pos valid

end Fields

section Kinds

/-- A time that is read back from its encoding: two digits tell the years from 1950 to 2049 apart,
and no moment is earlier than 1970. -/
def IsReadable : Time → Prop
  | utc moment => moment.IsValid ∧ moment.year < 2050
  | generalized moment => moment.IsValid

instance (time : Time) : Decidable time.IsReadable :=
  match time with
  | utc moment => inferInstanceAs (Decidable (moment.IsValid ∧ _))
  | generalized moment => inferInstanceAs (Decidable moment.IsValid)

/-- The digits of a year end where the month's begin. -/
theorem decimal?_take_eq_some_iff {size : Nat} :
    decimal? (bytes.take size) = some n ∧ bytes.drop size = fields moment ↔
      n < 10 ^ size ∧ bytes = digits size n ++ fields moment := by
  constructor
  · rintro ⟨read, rest⟩
    have taken : (bytes.take size).length = size := by
      have length := congrArg List.length rest
      rw [List.length_drop, length_fields] at length
      rw [List.length_take]
      omega
    obtain ⟨small, same⟩ := decimal?_eq_some_iff.mp read
    rw [taken] at small same
    exact ⟨small, by rw [← same, ← rest, List.take_append_drop]⟩
  · rintro ⟨small, rfl⟩
    rw [List.take_left' (length_digits size n), List.drop_left' (length_digits size n)]
    exact ⟨decimal?_digits small, rfl⟩

theorem utc?_eq_some_iff {time : Time} :
    utc? bytes = some time ↔
      ∃ moment, utc moment = time ∧ (utc moment).IsReadable ∧ bytes = content 2 moment := by
  simp only [utc?, Option.bind_eq_bind, Option.bind_eq_some_iff, Option.map_eq_map,
    Option.map_eq_some_iff, afterYear?_eq_some_iff]
  constructor
  · rintro ⟨year, read, moment, ⟨valid, named, rest⟩, rfl⟩
    obtain ⟨small, same⟩ := decimal?_take_eq_some_iff.mp ⟨read, rest⟩
    have century : moment.year % 100 = year ∧ moment.year < 2050 := by
      split at named <;> omega
    refine ⟨moment, rfl, ⟨valid, century.2⟩, ?_⟩
    rw [same, content_eq, ← digits_two_mod moment.year, century.1]
  · rintro ⟨moment, rfl, ⟨valid, early⟩, same⟩
    rw [content_eq, ← digits_two_mod] at same
    obtain ⟨read, rest⟩ := decimal?_take_eq_some_iff.mpr ⟨Nat.mod_lt moment.year (by decide), same⟩
    have late := valid.1
    refine ⟨moment.year % 100, read, moment, ⟨valid, ?_, rest⟩, rfl⟩
    split <;> omega

theorem generalized?_eq_some_iff {time : Time} :
    generalized? bytes = some time ↔
      ∃ moment, generalized moment = time ∧ (generalized moment).IsReadable ∧
        bytes = content 4 moment := by
  simp only [generalized?, Option.bind_eq_bind, Option.bind_eq_some_iff, Option.map_eq_map,
    Option.map_eq_some_iff, afterYear?_eq_some_iff]
  constructor
  · rintro ⟨year, read, moment, ⟨valid, rfl, rest⟩, rfl⟩
    obtain ⟨-, same⟩ := decimal?_take_eq_some_iff.mp ⟨read, rest⟩
    exact ⟨moment, rfl, valid, by rw [same, content_eq]⟩
  · rintro ⟨moment, rfl, valid, same⟩
    rw [content_eq] at same
    have small : moment.year < 10 ^ 4 := Nat.lt_succ_of_le valid.2.1
    obtain ⟨read, rest⟩ := decimal?_take_eq_some_iff.mpr ⟨small, same⟩
    exact ⟨moment.year, read, moment, ⟨valid, rfl, rest⟩, rfl⟩

theorem reads : Time.read.Reads Time.IsReadable Time.encode id := by
  rw [Reader.reads_id_iff]
  intro bytes time rest
  rw [Time.read, Reader.run_bind_eq_some_iff]
  constructor
  · rintro ⟨element, middle, taken, inner⟩
    obtain ⟨-, rfl⟩ := Reader.run_any_eq_some_iff.mp taken
    obtain ⟨tag, bytes⟩ := element
    dsimp only at inner
    split at inner
    · rename_i named
      obtain ⟨read, rfl⟩ := Reader.run_liftM_eq_some_iff.mp inner
      obtain ⟨moment, rfl, readable, rfl⟩ := utc?_eq_some_iff.mp read
      subst named
      exact ⟨readable, rfl⟩
    · split at inner
      · rename_i named
        obtain ⟨read, rfl⟩ := Reader.run_liftM_eq_some_iff.mp inner
        obtain ⟨moment, rfl, readable, rfl⟩ := generalized?_eq_some_iff.mp read
        subst named
        exact ⟨readable, rfl⟩
      · exact (Reader.run_failure_eq_some_iff.mp inner).elim
  · rintro ⟨readable, rfl⟩
    cases time with
    | utc moment =>
      have element : Element.IsReadable ⟨Tag.utcTime, content 2 moment⟩ :=
        ⟨(by decide : Tag.isKnown Tag.utcTime = true), by rw [length_content]; decide⟩
      refine ⟨_, rest, Reader.run_any_eq_some_iff.mpr ⟨element, rfl⟩, ?_⟩
      rw [if_pos rfl]
      exact Reader.run_liftM_eq_some_iff.mpr
        ⟨utc?_eq_some_iff.mpr ⟨moment, rfl, readable, rfl⟩, rfl⟩
    | generalized moment =>
      have element : Element.IsReadable ⟨Tag.generalizedTime, content 4 moment⟩ :=
        ⟨(by decide : Tag.isKnown Tag.generalizedTime = true), by rw [length_content]; decide⟩
      refine ⟨_, rest, Reader.run_any_eq_some_iff.mpr ⟨element, rfl⟩, ?_⟩
      dsimp only
      rw [if_neg (by decide), if_pos rfl]
      exact Reader.run_liftM_eq_some_iff.mpr
        ⟨generalized?_eq_some_iff.mpr ⟨moment, rfl, readable, rfl⟩, rfl⟩

end Kinds

end RequestSigning.Der.Time
