import Mathlib
import RequestSigning.Text.JsonText
set_option autoImplicit false

namespace RequestSigning.JsonText

section strings

/-- The value of a hexadecimal digit, in either case. -/
def digitValue? (c : Char) : Option Nat :=
  if '0' ≤ c ∧ c ≤ '9' then some (c.toNat - 48)
  else if 'a' ≤ c ∧ c ≤ 'f' then some (c.toNat - 87)
  else if 'A' ≤ c ∧ c ≤ 'F' then some (c.toNat - 55)
  else none

/-- The character that a letter stands for after a backslash. -/
def unescape? (c : Char) : Option Char :=
  if c = '"' ∨ c = '\\' ∨ c = '/' then some c
  else if c = 'n' then some '\n'
  else if c = 'r' then some '\r'
  else if c = 't' then some '\t'
  else if c = 'b' then some (Char.ofNat 8)
  else if c = 'f' then some (Char.ofNat 12)
  else none

/-- The characters up to the closing quotation mark, and what follows it. -/
def readBody : List Char → Option (List Char × List Char)
  | [] => none
  | '\\' :: 'u' :: a :: b :: c :: d :: rest => do
    let digits ← [a, b, c, d].mapM digitValue?
    let (chars, rest) ← readBody rest
    return (Char.ofNat (digits.foldl (16 * · + ·) 0) :: chars, rest)
  | '\\' :: c :: rest => do
    let c ← unescape? c
    let (chars, rest) ← readBody rest
    return (c :: chars, rest)
  | c :: rest =>
    if c = '"' then some ([], rest)
    else do
      let (chars, rest) ← readBody rest
      return (c :: chars, rest)

def readQuoted : List Char → Option (String × List Char)
  | '"' :: rest => (readBody rest).map fun (chars, rest) => (String.ofList chars, rest)
  | _ => none

theorem digitValue?_digit : ∀ n < 16, digitValue? (Hex.digit n) = some n := by
  decide

theorem readBody_of_unescape? {c d : Char} (read : unescape? c = some d) (rest : List Char) :
    readBody ('\\' :: c :: rest) = (readBody rest).map fun read => (d :: read.1, read.2) := by
  have other : c ≠ 'u' := by
    rintro rfl
    have none : unescape? 'u' = none := by decide
    rw [none] at read
    cases read
  rw [readBody]
  · rw [read]
    cases readBody rest with
    | none => rfl
    | some read => rfl
  · intro _ _ _ _ _ same
    exact absurd same other

theorem readBody_of_plain {c : Char} (quote : c ≠ '"') (backslash : c ≠ '\\') (rest : List Char) :
    readBody (c :: rest) = (readBody rest).map fun read => (c :: read.1, read.2) := by
  rw [readBody]
  · rw [if_neg quote]
    cases readBody rest with
    | none => rfl
    | some read => rfl
  · intro _ _ _ _ _ same
    exact absurd same backslash
  · intro _ _ same
    exact absurd same backslash

theorem readBody_of_number {c : Char} (small : c.toNat < 32) (rest : List Char) :
    readBody ('\\' :: 'u' :: '0' :: '0' :: Hex.digit (c.toNat / 16) :: Hex.digit (c.toNat % 16) ::
      rest) = (readBody rest).map fun read => (c :: read.1, read.2) := by
  have zero : digitValue? '0' = some 0 := by decide
  have high := digitValue?_digit (c.toNat / 16) (by omega)
  have low := digitValue?_digit (c.toNat % 16) (by omega)
  have value : 16 * (c.toNat / 16) + c.toNat % 16 = c.toNat := Nat.div_add_mod _ _
  rw [readBody]
  simp only [List.mapM_cons, List.mapM_nil, zero, high, low]
  cases readBody rest with
  | none => rfl
  | some read => simp [value]

theorem readBody_escape (c : Char) (rest : List Char) :
    readBody (escape c ++ rest) = (readBody rest).map fun read => (c :: read.1, read.2) := by
  rw [escape]
  split
  · rename_i special
    apply readBody_of_unescape?
    rcases special with rfl | rfl
    · rfl
    · rfl
  rename_i plain
  rw [not_or] at plain
  split
  · rename_i newline
    exact readBody_of_unescape? (newline ▸ rfl) rest
  split
  · rename_i carriageReturn
    exact readBody_of_unescape? (carriageReturn ▸ rfl) rest
  split
  · rename_i tab
    exact readBody_of_unescape? (tab ▸ rfl) rest
  split
  · rename_i backspace
    have same : c = Char.ofNat 8 := by rw [← backspace, Char.ofNat_toNat]
    exact readBody_of_unescape? (same ▸ rfl) rest
  split
  · rename_i formFeed
    have same : c = Char.ofNat 12 := by rw [← formFeed, Char.ofNat_toNat]
    exact readBody_of_unescape? (same ▸ rfl) rest
  split
  · rename_i control
    exact readBody_of_number control rest
  · exact readBody_of_plain plain.1 plain.2 rest

theorem readBody_flatMap_escape (chars rest : List Char) :
    readBody (chars.flatMap escape ++ '"' :: rest) = some (chars, rest) := by
  induction chars with
  | nil => rfl
  | cons c chars ih =>
    rw [List.flatMap_cons, List.append_assoc, readBody_escape, ih]
    rfl

/-- A text is read from its quotation. -/
theorem readQuoted_quote (text : String) (rest : List Char) :
    readQuoted ((quote text).toList ++ rest) = some (text, rest) := by
  have quoted : (quote text).toList ++ rest =
      '"' :: (text.toList.flatMap escape ++ '"' :: rest) := by
    rw [quote, String.toList_ofList]
    simp
  simp only [quoted, readQuoted, readBody_flatMap_escape, Option.map_some, String.ofList_toList]

end strings

section objects

def isSpace (c : Char) : Bool :=
  c == ' ' || c == '\n' || c == '\r' || c == '\t'

def skip (chars : List Char) : List Char :=
  chars.dropWhile isSpace

/-- What follows the character, with or without space before it. -/
def expect (c : Char) (chars : List Char) : Option (List Char) :=
  match skip chars with
  | d :: rest => if d = c then some rest else none
  | [] => none

variable {α : Type} (readValue : List Char → Option (α × List Char))

def readMember (chars : List Char) : Option ((String × α) × List Char) := do
  let (name, rest) ← readQuoted (skip chars)
  let rest ← expect ':' rest
  let (value, rest) ← readValue (skip rest)
  return ((name, value), rest)

/-- At most `limit` members, and the brace that closes them. -/
def readMembers : (limit : Nat) → List Char → Option (List (String × α) × List Char)
  | 0, _ => none
  | limit + 1, chars => do
    let (member, rest) ← readMember readValue chars
    match expect ',' rest with
    | some rest =>
      let (members, rest) ← readMembers limit rest
      return (member :: members, rest)
    | none => return ([member], ← expect '\x7d' rest)

def readObject (chars : List Char) : Option (List (String × α) × List Char) := do
  let rest ← expect '\x7b' chars
  match expect '\x7d' rest with
  | some rest => return ([], rest)
  | none => readMembers readValue rest.length rest

/-- A value is read from its text, whatever follows. -/
def ReadsBack (text : α → String) (value : α) : Prop :=
  ∀ rest, readValue (skip ((text value).toList ++ rest)) = some (value, rest)

variable {text : α → String} {members : List (String × α)}

theorem skip_append {spaces : List Char} (blank : ∀ c ∈ spaces, isSpace c = true) (rest : List Char) :
    skip (spaces ++ rest) = skip rest :=
  List.dropWhile_append_of_pos blank

theorem expect_append {spaces : List Char} (blank : ∀ c ∈ spaces, isSpace c = true) (c : Char)
    (rest : List Char) : expect c (spaces ++ rest) = expect c rest := by
  rw [expect, skip_append blank, expect]

/-- The text of a member, as far in as the column says. -/
def memberText (column : Nat) (text : α → String) (member : String × α) : String :=
  String.ofList (List.replicate column ' ') ++ "  " ++ quote member.1 ++ ": " ++ text member.2

theorem skip_quote (name : String) (rest : List Char) :
    skip ((quote name).toList ++ rest) = (quote name).toList ++ rest := by
  rw [quote, String.toList_ofList]
  rfl

theorem blank_indent (column : Nat) :
    ∀ c ∈ '\n' :: List.replicate column ' ', isSpace c = true := by
  rw [List.forall_mem_cons]
  exact ⟨rfl, fun c inside => (List.eq_of_mem_replicate inside) ▸ rfl⟩

variable {readValue}

theorem memberText_append (column : Nat) (text : α → String) (member : String × α)
    (rest : List Char) :
    '\n' :: (memberText column text member).toList ++ rest =
      ('\n' :: List.replicate (column + 2) ' ') ++ ((quote member.1).toList ++
        ':' :: ([' '] ++ ((text member.2).toList ++ rest))) := by
  have deeper : List.replicate (column + 2) ' ' = List.replicate column ' ' ++ [' ', ' '] := by
    rw [List.replicate_add]
    rfl
  have spaces : "  ".toList = [' ', ' '] := by simp
  have colon : ": ".toList = [':', ' '] := by simp
  simp only [memberText, deeper, spaces, colon, String.toList_append, String.toList_ofList,
    List.cons_append, List.append_assoc, List.nil_append]

theorem readMember_memberText {member : String × α} (reads : ReadsBack readValue text member.2)
    (column : Nat) (rest : List Char) :
    readMember readValue ('\n' :: (memberText column text member).toList ++ rest) =
      some (member, rest) := by
  have colon (rest : List Char) : expect ':' (':' :: rest) = some rest := rfl
  have space : ∀ c ∈ [' '], isSpace c = true := by simp [isSpace]
  rw [memberText_append, readMember, skip_append (blank_indent _), skip_quote, readQuoted_quote]
  simp only [bind, Option.bind_some, colon]
  rw [skip_append space, reads rest]
  rfl

theorem expect_memberText {c : Char} (other : c ≠ '"') (column : Nat) (member : String × α)
    (rest : List Char) :
    expect c ('\n' :: (memberText column text member).toList ++ rest) = none := by
  rw [memberText_append, expect_append (blank_indent _), expect, skip_quote, quote,
    String.toList_ofList]
  exact if_neg other.symm

theorem length_le_intercalate (column : Nat) (text : α → String) (members : List (String × α)) :
    members.length ≤ (",\n".intercalate (members.map (memberText column text))).toList.length := by
  induction members with
  | nil => exact Nat.zero_le _
  | cons member later ih =>
    have filled : 1 ≤ (memberText column text member).toList.length := by
      simp [memberText]
      omega
    cases later with
    | nil => simpa using filled
    | cons next last =>
      have joined : (",\n".intercalate ((member :: next :: last).map (memberText column text))) =
          memberText column text member ++ ",\n" ++
            ",\n".intercalate ((next :: last).map (memberText column text)) := by
        simp [String.intercalate_cons_cons]
      rw [joined, String.toList_append, String.toList_append, List.length_append,
        List.length_append]
      simp only [List.length_cons] at ih ⊢
      omega

theorem readMembers_intercalate (reads : ∀ member ∈ members, ReadsBack readValue text member.2)
    (column : Nat) (nonempty : members ≠ []) (limit : Nat) (enough : members.length ≤ limit)
    (rest : List Char) :
    readMembers readValue limit ('\n' :: (",\n".intercalate
      (members.map (memberText column text))).toList ++
        (('\n' :: List.replicate column ' ') ++ '\x7d' :: rest)) = some (members, rest) := by
  induction members generalizing limit with
  | nil => exact absurd rfl nonempty
  | cons member later ih =>
    obtain ⟨here, others⟩ := List.forall_mem_cons.mp reads
    cases limit with
    | zero => simp at enough
    | succ limit =>
      cases later with
      | nil =>
        have comma : expect ',' (('\n' :: List.replicate column ' ') ++ '\x7d' :: rest) = none := by
          rw [expect_append (blank_indent _)]
          rfl
        have brace : expect '\x7d' (('\n' :: List.replicate column ' ') ++ '\x7d' :: rest) =
            some rest := by
          rw [expect_append (blank_indent _)]
          rfl
        rw [readMembers, List.map_singleton, String.intercalate_singleton,
          readMember_memberText here]
        simp only [bind, Option.bind_some, comma, brace]
        rfl
      | cons next last =>
        have fewer : (next :: last).length ≤ limit := by
          simp only [List.length_cons] at enough ⊢
          omega
        have tail := ih others (List.cons_ne_nil _ _) limit fewer
        have joined (after : List Char) : '\n' :: (",\n".intercalate
            ((member :: next :: last).map (memberText column text))).toList ++ after =
              '\n' :: (memberText column text member).toList ++ (',' :: ('\n' :: (",\n".intercalate
                ((next :: last).map (memberText column text))).toList ++ after)) := by
          simp [String.intercalate_cons_cons]
        have comma (rest : List Char) : expect ',' (',' :: rest) = some rest := rfl
        rw [joined, readMembers, readMember_memberText here]
        simp only [bind, Option.bind_some, comma, tail]
        rfl

/-- An object is read from its text. -/
theorem readObject_object (reads : ∀ member ∈ members, ReadsBack readValue text member.2)
    (column : Nat) (rest : List Char) :
    readObject readValue
      ((object column (members.map fun (name, value) => (name, text value))).toList ++ rest) =
        some (members, rest) := by
  let closing : List Char := ('\n' :: List.replicate column ' ') ++ '\x7d' :: rest
  let body : List Char :=
    '\n' :: (",\n".intercalate (members.map (memberText column text))).toList ++ closing
  have written : (object column (members.map fun (name, value) => (name, text value))).toList ++
      rest = '\x7b' :: body := by
    have open_ : "\x7b\n".toList = ['\x7b', '\n'] := by simp
    have newline : "\n".toList = ['\n'] := by simp
    have close : "\x7d".toList = ['\x7d'] := by simp
    simp only [object, body, closing, List.map_map, String.toList_append, open_, newline, close,
      List.cons_append, List.append_assoc, List.nil_append, String.toList_ofList]
    rfl
  have opened : expect '\x7b' ('\x7b' :: body) = some body := rfl
  rw [written, readObject]
  simp only [bind, Option.bind_some, opened]
  cases members with
  | nil =>
    have closed : expect '\x7d' body = some rest := by
      have blank : ∀ c ∈ '\n' :: '\n' :: List.replicate column ' ', isSpace c = true := by
        rw [List.forall_mem_cons]
        exact ⟨rfl, blank_indent column⟩
      exact (expect_append blank _ _).trans rfl
    rw [closed]
    rfl
  | cons member later =>
    have more : expect '\x7d' body = none := by
      cases later with
      | nil =>
        have single : body = '\n' :: (memberText column text member).toList ++ closing := by
          simp only [body, List.map_singleton, String.intercalate_singleton]
        rw [single, expect_memberText (by decide)]
      | cons next last =>
        have several : body = '\n' :: (memberText column text member).toList ++ (",\n" ++
            ",\n".intercalate ((next :: last).map (memberText column text))).toList ++ closing := by
          simp [body, String.intercalate_cons_cons]
        rw [several, List.append_assoc, expect_memberText (by decide)]
    have enough : (member :: later).length ≤ body.length := by
      have short := length_le_intercalate column text (member :: later)
      simp only [body, List.length_cons, List.length_append] at short ⊢
      omega
    rw [more]
    exact readMembers_intercalate reads column (List.cons_ne_nil _ _) body.length enough rest

theorem toList_object (column : Nat) (members : List (String × String)) :
    ∃ rest, (object column members).toList = '\x7b' :: rest := by
  have open_ : "\x7b\n".toList = ['\x7b', '\n'] := by simp
  simp only [object, String.toList_append, open_, List.cons_append]
  exact ⟨_, rfl⟩

end objects

end RequestSigning.JsonText
