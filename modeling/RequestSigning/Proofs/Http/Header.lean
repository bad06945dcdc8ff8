import Mathlib
import RequestSigning.Http.Header
import RequestSigning.Proofs.Text.Utf8
set_option autoImplicit false

namespace RequestSigning.Http

namespace HeaderName

theorem lowercase_text (name : HeaderName) : lowercase name.text = name.text := by
  have kept : ∀ c ∈ name.text.toList, c.toLower = id c := by
    intro c inside
    have valid := List.all_eq_true.mp name.token c inside
    rw [isHeaderNameChar, Bool.and_eq_true, Bool.not_eq_true'] at valid
    apply Char.toLower_eq_of_not_isUpper
    simp [valid.2]
  apply String.toList_inj.mp
  rw [lowercase, String.toList_ofList, List.map_congr_left kept, List.map_id]

/-- A name is read from its text. -/
theorem ofText?_text (name : HeaderName) : ofText? name.text = some name := by
  have valid : lowercase name.text ≠ "" ∧ (lowercase name.text).length ≤ maxHeaderNameLength ∧
      (lowercase name.text).toList.all isHeaderNameChar = true := by
    rw [lowercase_text]
    exact ⟨name.nonempty, name.length_le, name.token⟩
  rw [ofText?, dif_pos valid]
  exact congrArg some (ext_iff.mpr name.lowercase_text)

end HeaderName

namespace HeaderValue

theorem bytes_injective : Function.Injective HeaderValue.bytes := by
  rintro ⟨left, _⟩ ⟨right, _⟩ same
  cases same
  rfl

/-- The bytes are those of a text. -/
def IsText (value : HeaderValue) : Prop :=
  ∃ text, value.bytes = Bytes.ofString text

variable {value : HeaderValue}

/-- Such a value is read from its text. -/
theorem IsText.ofText?_text (isText : value.IsText) : ofText? value.text = some value := by
  obtain ⟨text, bytes⟩ := isText
  rw [HeaderValue.text, bytes, Bytes.toStringLossy_ofString, ofText?, ← bytes, ofBytes?,
    dif_pos value.valid]

theorem isText_of_ascii (ascii : ∀ b ∈ value.bytes, b < 0x80) : value.IsText :=
  ⟨value.bytes.toStringLossy, (Bytes.ofString_toStringLossy ascii).symm⟩

theorem bytes_of_ofText? {text : String} (valid : ofText? text = some value) :
    value.bytes = Bytes.ofString text := by
  rw [ofText?, ofBytes?] at valid
  split at valid
  · cases valid
    rfl
  · cases valid

theorem isText_of_ofText? {text : String} (valid : ofText? text = some value) : value.IsText :=
  ⟨text, bytes_of_ofText? valid⟩

/-- The header value of a number is its decimal text. -/
theorem bytes_ofNat (n : Nat) : (ofNat n).bytes = Bytes.ofString (toString n) := by
  have ascii : ∀ c ∈ Nat.toDigits 10 n, c.toNat < 0x80 := by
    intro c digit
    have decimal := Nat.isDigit_of_mem_toDigits (by decide) (by decide) digit
    simp only [Char.isDigit, Bool.and_eq_true, decide_eq_true_eq] at decimal
    have high : c.toNat ≤ 57 := decimal.2
    omega
  rw [Nat.toString_eq_repr, Bytes.ofString, Nat.toList_repr, Utf8.encode_eq_map_of_ascii ascii]
  rfl

theorem isText_ofNat (n : Nat) : (ofNat n).IsText :=
  ⟨toString n, bytes_ofNat n⟩

end HeaderValue

namespace Headers

variable {headers : Headers} {name other : HeaderName} {value : HeaderValue}

theorem ext_iff {left right : Headers} : left = right ↔ left.entries = right.entries := by
  cases left
  cases right
  simp only [mk.injEq]

theorem erase_comm (headers : Headers) (name other : HeaderName) :
    (headers.erase name).erase other = (headers.erase other).erase name := by
  rw [ext_iff]
  simp only [erase, List.filter_filter]
  congr 1
  funext entry
  rw [Bool.and_comm]

theorem erase_erase (headers : Headers) (name : HeaderName) :
    (headers.erase name).erase name = headers.erase name := by
  rw [ext_iff]
  simp only [erase, List.filter_filter, Bool.and_self]

theorem erase_append_self (headers : Headers) (name : HeaderName) (value : HeaderValue) :
    (headers.append name value).erase name = headers.erase name := by
  rw [ext_iff]
  simp [append, erase, List.filter_append]

theorem erase_append_of_ne (different : name ≠ other) (headers : Headers) (value : HeaderValue) :
    (headers.append name value).erase other = (headers.erase other).append name value := by
  rw [ext_iff]
  simp [append, erase, List.filter_append, different]

theorem erase_insert_self (headers : Headers) (name : HeaderName) (value : HeaderValue) :
    (headers.insert name value).erase name = headers.erase name := by
  rw [insert, erase_append_self, erase_erase]

theorem erase_insert_of_ne (different : name ≠ other) (headers : Headers) (value : HeaderValue) :
    (headers.insert name value).erase other = (headers.erase other).insert name value := by
  rw [insert, erase_append_of_ne different, erase_comm, insert]

theorem insert_erase_self (headers : Headers) (name : HeaderName) (value : HeaderValue) :
    (headers.erase name).insert name value = headers.insert name value := by
  rw [insert, erase_erase, insert]

/-- Of two headers that are set in turn the same way twice, the second time changes nothing. -/
theorem insert_insert_again (different : name ≠ other) (headers : Headers)
    (first second : HeaderValue) :
    (((headers.insert name first).insert other second).insert name first).insert other second =
      (headers.insert name first).insert other second := by
  have erased : ((headers.insert name first).insert other second).erase name =
      (headers.erase name).insert other second := by
    rw [erase_insert_of_ne different.symm, erase_insert_self]
  have rest : ((headers.erase name).insert other second).erase other =
      (headers.erase name).erase other := erase_insert_self _ _ _
  calc
    (((headers.insert name first).insert other second).insert name first).insert other second =
        ((((headers.erase name).insert other second).append name first).erase other).append
          other second := by rw [insert, insert, erased]
    _ = (((headers.erase name).erase other).append name first).append other second := by
      rw [erase_append_of_ne different, rest]
    _ = (headers.insert name first).insert other second := by
      rw [← erase_append_of_ne different]
      rfl

@[simp] theorem values_empty (name : HeaderName) : Headers.empty.values name = [] := rfl

theorem values_eq_map_filter (headers : Headers) (name : HeaderName) :
    headers.values name = (headers.entries.filter (·.1 = name)).map (·.2) := by
  rw [values]
  induction headers.entries with
  | nil => rfl
  | cons entry entries ih =>
    rw [List.filterMap_cons, List.filter_cons, ih]
    by_cases here : entry.1 = name
    · simp [here]
    · simp [here]

theorem get?_eq_find? (headers : Headers) (name : HeaderName) :
    headers.get? name = (headers.entries.find? (·.1 = name)).map (·.2) := by
  rw [get?, values_eq_map_filter, List.head?_map, List.head?_filter]

section sorting

theorem name_le_trans (a b c : HeaderName × HeaderValue)
    (first : decide (a.1.text ≤ b.1.text) = true) (second : decide (b.1.text ≤ c.1.text) = true) :
    decide (a.1.text ≤ c.1.text) = true := by
  rw [decide_eq_true_eq] at first second ⊢
  exact le_trans first second

theorem name_le_total (a b : HeaderName × HeaderValue) :
    (decide (a.1.text ≤ b.1.text) || decide (b.1.text ≤ a.1.text)) = true := by
  rw [Bool.or_eq_true, decide_eq_true_eq, decide_eq_true_eq]
  exact le_total _ _

theorem pairwise_sorted (headers : Headers) :
    headers.sorted.Pairwise fun left right => left.1.text ≤ right.1.text := by
  have pairs := List.pairwise_mergeSort name_le_trans name_le_total headers.entries
  exact pairs.imp fun ordered => of_decide_eq_true ordered

theorem mem_sorted {entry : HeaderName × HeaderValue} (inside : entry ∈ headers.sorted) :
    entry ∈ headers.entries :=
  (List.mergeSort_perm _ _).subset inside

/-- Sorting keeps the order of the values of a name. -/
theorem values_sorted (headers : Headers) (name : HeaderName) :
    values ⟨headers.sorted⟩ name = headers.values name := by
  have alike : (headers.entries.filter (·.1 = name)).Pairwise fun left right =>
      decide (left.1.text ≤ right.1.text) = true := by
    apply List.pairwise_of_forall_mem_list
    intro left leftInside right rightInside
    have leftName := List.of_mem_filter leftInside
    have rightName := List.of_mem_filter rightInside
    rw [decide_eq_true_eq] at leftName rightName ⊢
    rw [leftName, rightName]
  have kept := (List.sublist_mergeSort name_le_trans name_le_total alike
    List.filter_sublist).filter (·.1 = name)
  rw [List.filter_filter] at kept
  simp only [Bool.and_self] at kept
  have sameLength := ((List.mergeSort_perm headers.entries fun left right =>
    left.1.text ≤ right.1.text).filter (·.1 = name)).length_eq
  rw [values_eq_map_filter, values_eq_map_filter, kept.eq_of_length sameLength.symm]
  rfl

end sorting

/-- Each value can be told as text. -/
def AreTexts (headers : Headers) : Prop :=
  ∀ entry ∈ headers.entries, entry.2.IsText

theorem AreTexts.empty : Headers.empty.AreTexts :=
  fun _ inside => by cases inside

theorem AreTexts.values (texts : headers.AreTexts) (name : HeaderName) :
    ∀ value ∈ headers.values name, value.IsText := by
  intro value inside
  rw [values_eq_map_filter, List.mem_map] at inside
  obtain ⟨entry, listed, rfl⟩ := inside
  exact texts entry (List.mem_of_mem_filter listed)

theorem AreTexts.append (texts : headers.AreTexts) (isText : value.IsText) (name : HeaderName) :
    (headers.append name value).AreTexts := by
  intro entry inside
  rcases List.mem_append.mp inside with before | added
  · exact texts entry before
  · rw [List.mem_singleton.mp added]
    exact isText

theorem AreTexts.erase (texts : headers.AreTexts) (name : HeaderName) :
    (headers.erase name).AreTexts :=
  fun entry inside => texts entry (List.mem_of_mem_filter inside)

theorem AreTexts.insert (texts : headers.AreTexts) (isText : value.IsText) (name : HeaderName) :
    (headers.insert name value).AreTexts :=
  (texts.erase name).append isText name

end Headers

end RequestSigning.Http
