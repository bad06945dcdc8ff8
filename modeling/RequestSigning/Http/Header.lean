import RequestSigning.Http.Method
set_option autoImplicit false

namespace RequestSigning.Http

/-- ASCII letters in lower case; all else as it is. -/
def lowercase (text : String) : String :=
  String.ofList (text.toList.map Char.toLower)

def isHeaderNameChar (c : Char) : Bool :=
  isTokenChar c && !c.isUpper

/-- The longest header name. -/
def maxHeaderNameLength : Nat := 65535

/-- A header name in lower case. -/
structure HeaderName where
  text : String
  nonempty : text ≠ ""
  length_le : text.length ≤ maxHeaderNameLength
  token : text.toList.all isHeaderNameChar = true

namespace HeaderName

theorem ext_iff {left right : HeaderName} : left = right ↔ left.text = right.text := by
  cases left
  cases right
  simp only [mk.injEq]

instance : DecidableEq HeaderName :=
  fun _ _ => decidable_of_iff' _ ext_iff

/-- The name written in any case. -/
def ofText? (text : String) : Option HeaderName :=
  let text := lowercase text
  if h : text ≠ "" ∧ text.length ≤ maxHeaderNameLength ∧
      text.toList.all isHeaderNameChar = true then
    some ⟨text, h.1, h.2.1, h.2.2⟩
  else none

def ofBytes? (bytes : Bytes) : Option HeaderName :=
  ofText? (String.ofList (latin bytes))

def authorization : HeaderName := ⟨"authorization", by decide, by decide, by decide⟩
def contentLength : HeaderName := ⟨"content-length", by decide, by decide, by decide⟩
def date : HeaderName := ⟨"date", by decide, by decide, by decide⟩
def host : HeaderName := ⟨"host", by decide, by decide, by decide⟩

end HeaderName

/-- Horizontal tab, and everything from the space on but DEL. -/
def isHeaderValueByte (b : UInt8) : Bool :=
  b == 9 || (32 ≤ b && b != 127)

structure HeaderValue where
  bytes : Bytes
  valid : bytes.all isHeaderValueByte = true
  deriving DecidableEq

namespace HeaderValue

def ofBytes? (bytes : Bytes) : Option HeaderValue :=
  if h : bytes.all isHeaderValueByte = true then some ⟨bytes, h⟩ else none

def ofText? (text : String) : Option HeaderValue :=
  ofBytes? (Bytes.ofString text)

/-- The value as text, whatever its bytes are. -/
def text (value : HeaderValue) : String :=
  value.bytes.toStringLossy

theorem all_digits (digits : List Char) (decimal : ∀ c ∈ digits, c.isDigit = true) :
    (digits.map fun c => UInt8.ofNat c.toNat).all isHeaderValueByte = true := by
  simp only [List.all_eq_true, List.mem_map, forall_exists_index, and_imp,
    forall_apply_eq_imp_iff₂]
  intro c inside
  have bounds := decimal c inside
  simp only [Char.isDigit, Bool.and_eq_true, decide_eq_true_eq] at bounds
  have low : 48 ≤ c.toNat := bounds.1
  have high : c.toNat ≤ 57 := bounds.2
  generalize c.toNat = n at low high
  have : n = 48 ∨ n = 49 ∨ n = 50 ∨ n = 51 ∨ n = 52 ∨ n = 53 ∨ n = 54 ∨ n = 55 ∨ n = 56 ∨ n = 57 := by
    omega
  rcases this with rfl | rfl | rfl | rfl | rfl | rfl | rfl | rfl | rfl | rfl <;> rfl

/-- A number in decimal. -/
def ofNat (n : Nat) : HeaderValue where
  bytes := (Nat.toDigits 10 n).map fun c => UInt8.ofNat c.toNat
  valid := all_digits _ fun _ inside => Nat.isDigit_of_mem_toDigits (by decide) (by decide) inside

end HeaderValue

/-- Headers in the order in which they were added. A name may have several values. -/
structure Headers where
  entries : List (HeaderName × HeaderValue)
  deriving DecidableEq

namespace Headers

def empty : Headers := ⟨[]⟩

/-- The values of a name, in order. -/
def values (headers : Headers) (name : HeaderName) : List HeaderValue :=
  headers.entries.filterMap fun (key, value) => if key = name then some value else none

def get? (headers : Headers) (name : HeaderName) : Option HeaderValue :=
  (headers.values name).head?

def contains (headers : Headers) (name : HeaderName) : Bool :=
  (headers.get? name).isSome

def erase (headers : Headers) (name : HeaderName) : Headers :=
  ⟨headers.entries.filter (·.1 ≠ name)⟩

def append (headers : Headers) (name : HeaderName) (value : HeaderValue) : Headers :=
  ⟨headers.entries ++ [(name, value)]⟩

/-- Makes the value the only one of its name. -/
def insert (headers : Headers) (name : HeaderName) (value : HeaderValue) : Headers :=
  (headers.erase name).append name value

/-- Sorted by name; the values of one name keep their order. -/
def sorted (headers : Headers) : List (HeaderName × HeaderValue) :=
  headers.entries.mergeSort fun left right => left.1.text ≤ right.1.text

@[simp] theorem values_append (headers : Headers) (name other : HeaderName) (value : HeaderValue) :
    (headers.append name value).values other =
      headers.values other ++ if name = other then [value] else [] := by
  simp only [values, append, List.filterMap_append, List.filterMap_cons, List.filterMap_nil]
  split <;> simp_all

@[simp] theorem values_erase (headers : Headers) (name other : HeaderName) :
    (headers.erase name).values other = if name = other then [] else headers.values other := by
  simp only [values, erase, List.filterMap_filter]
  split
  · rename_i same
    subst same
    rw [List.filterMap_eq_nil_iff]
    intro entry _
    simp only [ne_eq, decide_not, Bool.not_eq_true', decide_eq_false_iff_not, ite_not]
    split <;> simp_all
  · rename_i different
    congr 1
    funext entry
    by_cases here : entry.1 = name
    · simp_all
    · simp_all

@[simp] theorem values_insert (headers : Headers) (name other : HeaderName) (value : HeaderValue) :
    (headers.insert name value).values other =
      if name = other then [value] else headers.values other := by
  simp only [insert, values_append, values_erase]
  split <;> simp

end Headers

end RequestSigning.Http
