import RequestSigning.Http.Uri
import RequestSigning.Proofs.Except
import RequestSigning.Proofs.Text.Utf8
set_option autoImplicit false

namespace RequestSigning

theorem Char.toNat_lt_of_isAlphanum {c : Char} (alphanumeric : c.isAlphanum = true) :
    c.toNat < 0x80 := by
  simp only [Char.isAlphanum, Char.isAlpha, Char.isUpper, Char.isLower, Char.isDigit,
    Bool.or_eq_true, Bool.and_eq_true, decide_eq_true_eq, ge_iff_le, UInt32.le_iff_toNat_le]
    at alphanumeric
  have bounds : ('z' : Char).val.toNat = 122 ∧ ('Z' : Char).val.toNat = 90 ∧
      ('9' : Char).val.toNat = 57 := by decide
  change c.val.toNat < 0x80
  omega

namespace Http

section latin

theorem latin_append (left right : Bytes) : latin (left ++ right) = latin left ++ latin right :=
  List.map_append

theorem length_latin (bytes : Bytes) : (latin bytes).length = bytes.length :=
  List.length_map _

theorem latin_ofString {text : String} (ascii : ∀ c ∈ text.toList, c.toNat < 0x80) :
    latin (Bytes.ofString text) = text.toList := by
  rw [Bytes.ofString, Utf8.encode, latin]
  generalize text.toList = chars at ascii
  induction chars with
  | nil => rfl
  | cons c chars ih =>
    have small := ascii c List.mem_cons_self
    have same : (UInt8.ofNat c.toNat).toNat = c.toNat :=
      UInt8.toNat_ofNat_of_lt' (Nat.lt_trans small (by decide))
    rw [List.flatMap_cons, Utf8.utf8EncodeChar_of_lt small, List.map_append,
      ih fun c inside => ascii c (List.mem_cons_of_mem _ inside)]
    simp only [List.map_cons, List.map_nil, same, Char.ofNat_toNat, List.singleton_append]

/-- Bytes whose characters are all ASCII are those of a text. -/
theorem ofString_of_latin {bytes : Bytes} {chars : List Char} (whole : latin bytes = chars)
    (ascii : ∀ c ∈ chars, c.toNat < 0x80) : Bytes.ofString (String.ofList chars) = bytes := by
  rw [Bytes.ofString, String.toList_ofList, ← whole, latin]
  apply Utf8.encode_of_ascii
  intro b inside
  have small := ascii (Char.ofNat b.toNat) (whole ▸ List.mem_map.mpr ⟨b, inside, rfl⟩)
  have byte := b.toNat_lt
  rw [Char.toNat_ofNat, if_pos (by simp [Nat.isValidChar]; omega)] at small
  exact UInt8.lt_iff_toNat_lt.mpr small

end latin

theorem toNat_lt_of_isAuthorityChar {c : Char} (valid : isAuthorityChar c = true) :
    c.toNat < 0x80 := by
  rw [isAuthorityChar, Bool.or_eq_true, List.contains_iff_mem] at valid
  rcases valid with alphanumeric | listed
  · exact Char.toNat_lt_of_isAlphanum alphanumeric
  · have all : ∀ c ∈ "!$&'()*+,-.:;=@[]_~%".toList, c.toNat < 0x80 := by simp
    exact all c listed

theorem toNat_lt_of_isSchemeChar {c : Char} (valid : isSchemeChar c = true) :
    c.toNat < 0x80 := by
  rw [isSchemeChar, Bool.or_eq_true, List.contains_iff_mem] at valid
  rcases valid with alphanumeric | listed
  · exact Char.toNat_lt_of_isAlphanum alphanumeric
  · have all : ∀ c ∈ "+-.~".toList, c.toNat < 0x80 := by simp
    exact all c listed

namespace PathAndQuery

theorem text_eq (target : PathAndQuery) :
    target.text.toList = target.path.toList ++
      match target.query with
      | none => []
      | some query => '?' :: query.toList := by
  rw [text]
  cases target.query with
  | none => exact (List.append_nil _).symm
  | some query => simp

theorem numberSign_not_mem_text (target : PathAndQuery) : '#' ∉ target.text.toList := by
  have path : '#' ∉ target.path.toList := fun inside =>
    absurd (List.all_eq_true.mp target.path_valid _ inside) (by decide)
  rw [text_eq]
  cases found : target.query with
  | none => simpa using path
  | some query =>
    have query : '#' ∉ query.toList := fun inside =>
      absurd (List.all_eq_true.mp (target.query_valid query found) _ inside) (by decide)
    simp [path, query]

/-- What follows the path. -/
def queryOf : List Char → Option String
  | [] => none
  | _ :: query => some (String.ofList query)

theorem parse_of_decode {bytes : Bytes} {chars : List Char}
    (decoded : Utf8.decode (bytes.takeWhile (· ≠ 35)) = .ok chars) (nonempty : chars ≠ []) :
    parse bytes =
      if h : (String.ofList (chars.takeWhile (· ≠ '?'))).toList.all isPathChar = true ∧
          ∀ text ∈ queryOf (chars.dropWhile (· ≠ '?')), text.toList.all isQueryChar = true then
        .ok ⟨String.ofList (chars.takeWhile (· ≠ '?')), queryOf (chars.dropWhile (· ≠ '?')),
          h.1, h.2⟩
      else .error .invalidCharacter := by
  rw [parse, decoded]
  cases chars with
  | nil => exact absurd rfl nonempty
  | cons c rest => rfl

theorem parse_eq_ok {bytes : Bytes} {chars : List Char} {target : PathAndQuery}
    (decoded : Utf8.decode (bytes.takeWhile (· ≠ 35)) = .ok chars) (nonempty : chars ≠ [])
    (path : String.ofList (chars.takeWhile (· ≠ '?')) = target.path)
    (query : queryOf (chars.dropWhile (· ≠ '?')) = target.query) : parse bytes = .ok target := by
  obtain ⟨pathText, queryText, pathValid, queryValid⟩ := target
  subst path
  subst query
  rw [parse_of_decode decoded nonempty, dif_pos ⟨pathValid, queryValid⟩]

/-- A path and query is read from its text. -/
theorem parse_text (target : PathAndQuery) (nonempty : target.text ≠ "") :
    parse (Bytes.ofString target.text) = .ok target := by
  have whole : (Bytes.ofString target.text).takeWhile (· ≠ 35) = Bytes.ofString target.text := by
    rw [List.takeWhile_eq_self_iff]
    intro b inside
    rw [decide_eq_true_eq]
    rintro rfl
    exact target.numberSign_not_mem_text (Utf8.mem_of_mem_encode inside (by decide))
  have path : ∀ c ∈ target.path.toList, decide (c ≠ '?') = true := by
    intro c inside
    rw [decide_eq_true_eq]
    rintro rfl
    exact absurd (List.all_eq_true.mp target.path_valid _ inside) (by decide)
  have decoded : Utf8.decode ((Bytes.ofString target.text).takeWhile (· ≠ 35)) =
      .ok target.text.toList := by
    rw [whole]
    exact Utf8.decode_encode _
  apply parse_eq_ok decoded
  · simpa using nonempty
  · rw [text_eq, List.takeWhile_append_of_pos path]
    cases target.query with
    | none => simp
    | some query => simp
  · rw [text_eq, List.dropWhile_append_of_pos path]
    cases target.query with
    | none => rfl
    | some query => simp [queryOf]

end PathAndQuery

namespace PathAndQuery

/-- What is read is the root where there is nothing but a fragment, and else what stands before and
after the first question mark. -/
theorem parts_of_parse {bytes : Bytes} {target : PathAndQuery} (read : parse bytes = .ok target) :
    ∃ chars, Utf8.decode (bytes.takeWhile (· ≠ 35)) = .ok chars ∧
      (chars = [] ∧ target = root ∨
        chars ≠ [] ∧ target.path = String.ofList (chars.takeWhile (· ≠ '?')) ∧
          target.query = queryOf (chars.dropWhile (· ≠ '?'))) := by
  cases decoded : Utf8.decode (bytes.takeWhile (· ≠ 35)) with
  | error fault =>
    rw [parse, decoded] at read
    cases read
  | ok chars =>
    refine ⟨chars, rfl, ?_⟩
    by_cases none : chars = []
    · rw [parse, decoded, none] at read
      cases read
      exact .inl ⟨none, rfl⟩
    · rw [parse_of_decode decoded none] at read
      split at read
      · cases read
        exact .inr ⟨none, rfl, rfl⟩
      · cases read

/-- What is read from a slash on has a path that begins with it. -/
theorem path_of_parse_slash {bytes : Bytes} {target : PathAndQuery}
    (read : parse (47 :: bytes) = .ok target) : target.path.toList.head? = some '/' := by
  obtain ⟨chars, decoded, ⟨-, rfl⟩ | ⟨-, path, -⟩⟩ := parts_of_parse read
  · rfl
  · have slash : Utf8.step .start 47 = .char '/' := by decide
    have cut : (47 :: bytes).takeWhile (· ≠ 35) = 47 :: bytes.takeWhile (· ≠ 35) := rfl
    rw [cut, Utf8.decode, Utf8.decodeFrom_of_char slash] at decoded
    obtain ⟨rest, -, rfl⟩ := Except.map_eq_ok decoded
    rw [path, String.toList_ofList]
    rfl

theorem path_of_parse_question {bytes : Bytes} {target : PathAndQuery}
    (read : parse (63 :: bytes) = .ok target) :
    target.path = "" ∨ target.path.toList.head? = some '/' := by
  obtain ⟨chars, decoded, ⟨-, rfl⟩ | ⟨-, path, -⟩⟩ := parts_of_parse read
  · exact .inr rfl
  · have question : Utf8.step .start 63 = .char '?' := by decide
    have cut : (63 :: bytes).takeWhile (· ≠ 35) = 63 :: bytes.takeWhile (· ≠ 35) := rfl
    rw [cut, Utf8.decode, Utf8.decodeFrom_of_char question] at decoded
    obtain ⟨rest, -, rfl⟩ := Except.map_eq_ok decoded
    exact .inl path

end PathAndQuery

namespace Authority

variable {chars : List Char} {authority : Authority}

theorem text_of_parse (read : parse chars = .ok authority) : authority.text.toList = chars := by
  rw [parse] at read
  split at read
  · cases read
  · split at read
    · cases read
    · split at read
      · cases read
        exact String.toList_ofList
      · cases read

theorem parse_text (read : parse chars = .ok authority) :
    parse authority.text.toList = .ok authority := by
  rwa [text_of_parse read]

theorem isAuthorityEnd_eq_false {c : Char} (inside : c ∈ authority.text.toList) :
    Uri.isAuthorityEnd c = false := by
  have valid := List.all_eq_true.mp authority.valid c inside
  cases ends : Uri.isAuthorityEnd c with
  | false => rfl
  | true =>
    simp only [Uri.isAuthorityEnd, Bool.or_eq_true, beq_iff_eq] at ends
    rcases ends with (rfl | rfl) | rfl
    · exact absurd valid (by decide)
    · exact absurd valid (by decide)
    · exact absurd valid (by decide)

theorem latin_text (authority : Authority) :
    latin (Bytes.ofString authority.text) = authority.text.toList :=
  latin_ofString fun c inside =>
    toNat_lt_of_isAuthorityChar (List.all_eq_true.mp authority.valid c inside)

end Authority

namespace Scheme

/-- The two schemes that are kept in lower case are written so. -/
def IsRead (scheme : Scheme) : Prop :=
  scheme = Uri.httpScheme ∨ scheme = Uri.httpsScheme ∨
    scheme.text.toList.map Char.toLower ≠ "http".toList ∧
      scheme.text.toList.map Char.toLower ≠ "https".toList ∧
      scheme.text.toList.length ≤ Uri.maxSchemeLength

theorem latin_text (scheme : Scheme) : latin (Bytes.ofString scheme.text) = scheme.text.toList :=
  latin_ofString fun c inside =>
    toNat_lt_of_isSchemeChar (List.all_eq_true.mp scheme.valid c inside)

theorem toLower_ne_colon {c : Char} (valid : isSchemeChar c = true) : c.toLower ≠ ':' := by
  intro colon
  have other : c.isAlpha = false := by
    rw [← Char.isAlpha_toLower_eq_isAlpha, colon]
    decide
  have kept : ¬ c.isUpper := by
    intro upper
    simp [Char.isAlpha, upper] at other
  rw [Char.toLower_eq_of_not_isUpper kept] at colon
  rw [colon] at valid
  exact absurd valid (by decide)

/-- The scheme's name ends at the first colon, in any case. -/
theorem map_toLower_eq_of_prefix {name rest : List Char} {word : List Char}
    (nameValid : ∀ c ∈ name, isSchemeChar c = true) (wordValid : ':' ∉ word)
    (begins : word ++ [':'] <+: (name ++ ':' :: rest).map Char.toLower) :
    name.map Char.toLower = word := by
  induction name generalizing word with
  | nil =>
    cases word with
    | nil => rfl
    | cons w word =>
      obtain ⟨same, -⟩ := List.cons_prefix_cons.mp begins
      have colon : w = ':' := same
      exact absurd (colon ▸ List.mem_cons_self) wordValid
  | cons c name ih =>
    cases word with
    | nil =>
      obtain ⟨same, -⟩ := List.cons_prefix_cons.mp begins
      exact absurd same.symm (toLower_ne_colon (nameValid c List.mem_cons_self))
    | cons w word =>
      obtain ⟨same, begins⟩ := List.cons_prefix_cons.mp begins
      rw [List.map_cons, ← same, ih (fun c inside => nameValid c (List.mem_cons_of_mem _ inside))
        (fun inside => wordValid (List.mem_cons_of_mem _ inside)) begins]

end Scheme

namespace Uri

section scheme

variable {scheme : Scheme} {bytes rest : Bytes}

theorem latin_separator : latin (Bytes.ofString "://") = "://".toList :=
  latin_ofString (by simp)

/-- A name that is not the word, in any case, does not look like the word from its front. -/
theorem take_map_toLower_ne {name rest : List Char} {word : String}
    (nameValid : ∀ c ∈ name, isSchemeChar c = true) (wordValid : ':' ∉ word.toList)
    (other : name.map Char.toLower ≠ word.toList) (width : Nat) :
    ((name ++ "://".toList ++ rest).take width).map Char.toLower ≠ (word ++ "://").toList := by
  intro same
  have separator : "://".toList = [':', '/', '/'] := by simp
  have whole : (word ++ "://").toList <+: (name ++ ':' :: ('/' :: '/' :: rest)).map Char.toLower := by
    rw [← same, separator, List.append_assoc]
    exact (List.take_prefix _ _).map _
  have begins : word.toList ++ [':'] <+: (word ++ "://").toList := by
    rw [String.toList_append, separator]
    exact ⟨['/', '/'], by simp⟩
  exact other (Scheme.map_toLower_eq_of_prefix nameValid wordValid (begins.trans whole))

/-- A name that is the word, in any case, looks like the word from its front. -/
theorem take_map_toLower_eq {chars : List Char} {word : String}
    (separated : (chars.drop (chars.takeWhile isSchemeChar).length).take 3 = "://".toList)
    (same : (chars.takeWhile isSchemeChar).map Char.toLower = word.toList) :
    (chars.take (word.toList.length + 3)).map Char.toLower = (word ++ "://").toList := by
  have name : chars.take (chars.takeWhile isSchemeChar).length = chars.takeWhile isSchemeChar :=
    (List.prefix_iff_eq_take.mp (List.takeWhile_prefix _)).symm
  rw [← same, List.length_map, List.take_add, name, separated, List.map_append, same,
    String.toList_append]
  simp

theorem text_of_scheme? {chars : List Char} (read : scheme? chars = some scheme) :
    scheme.text.toList = chars := by
  rw [scheme?] at read
  split at read
  · cases read
    exact String.toList_ofList
  · cases read

theorem isRead_of_splitScheme (split : splitScheme bytes = .ok (some (scheme, rest))) :
    scheme.IsRead := by
  simp only [splitScheme] at split
  split at split
  · cases split
    exact .inl rfl
  rename_i notHttp
  split at split
  · cases split
    exact .inr (.inl rfl)
  rename_i notHttps
  split at split
  · rename_i separated
    split at split
    · cases split
    · rename_i short
      have read := Option.map_eq_some_iff.mp (Except.ok.inj split)
      obtain ⟨found, read, pair⟩ := read
      cases pair
      have text := text_of_scheme? read
      rw [Scheme.IsRead, text]
      refine .inr (.inr ⟨fun same => notHttp ?_, fun same => notHttps ?_, Nat.not_lt.mp short⟩)
      · exact take_map_toLower_eq separated.2 same
      · exact take_map_toLower_eq separated.2 same
  · cases split

theorem scheme?_text (scheme : Scheme) : scheme? scheme.text.toList = some scheme := by
  have valid : (String.ofList scheme.text.toList).toList.all isSchemeChar = true := by
    rw [String.toList_ofList]
    exact scheme.valid
  rw [scheme?, dif_pos valid]
  simp only [String.ofList_toList]

theorem length_ofString_text (scheme : Scheme) :
    (Bytes.ofString scheme.text).length = scheme.text.toList.length := by
  rw [← length_latin, Scheme.latin_text]

/-- A scheme is read from its text. -/
theorem splitScheme_text (read : scheme.IsRead) (nonempty : rest ≠ []) :
    splitScheme (Bytes.ofString scheme.text ++ Bytes.ofString "://" ++ rest) =
      .ok (some (scheme, rest)) := by
  have chars : latin (Bytes.ofString scheme.text ++ Bytes.ofString "://" ++ rest) =
      scheme.text.toList ++ "://".toList ++ latin rest := by
    rw [latin_append, latin_append, Scheme.latin_text, latin_separator]
  have separator : (Bytes.ofString "://").length = 3 := by decide
  simp only [splitScheme, chars]
  rcases read with rfl | rfl | ⟨notHttp, notHttps, short⟩
  · have front : ((httpScheme.text.toList ++ "://".toList ++ latin rest).take 7).map Char.toLower =
        "http://".toList := rfl
    rw [if_pos front, List.drop_left' (by decide)]
  · have other : ((httpsScheme.text.toList ++ "://".toList ++ latin rest).take 7).map Char.toLower ≠
        "http://".toList := fun same => absurd same (by simp [httpsScheme])
    have front : ((httpsScheme.text.toList ++ "://".toList ++ latin rest).take 8).map Char.toLower =
        "https://".toList := rfl
    rw [if_neg other, if_pos front, List.drop_left' (by decide)]
  · have valid : ∀ c ∈ scheme.text.toList, isSchemeChar c = true :=
      List.all_eq_true.mp scheme.valid
    have name : (scheme.text.toList ++ "://".toList ++ latin rest).takeWhile isSchemeChar =
        scheme.text.toList := by
      have colon : isSchemeChar ':' = false := by decide
      rw [List.append_assoc, List.takeWhile_append_of_pos valid]
      simp [colon]
    have width : (Bytes.ofString scheme.text ++ Bytes.ofString "://").length =
        scheme.text.toList.length + 3 := by
      rw [List.length_append, length_ofString_text, separator]
    have long : 3 < (Bytes.ofString scheme.text ++ Bytes.ofString "://" ++ rest).length := by
      have filled := List.length_pos_iff.mpr nonempty
      rw [List.length_append, width]
      omega
    have separated : ((scheme.text.toList ++ "://".toList ++ latin rest).drop
        scheme.text.toList.length).take 3 = "://".toList := by
      rw [List.append_assoc, List.drop_left]
      simp
    have first : ((scheme.text.toList ++ "://".toList ++ latin rest).take 7).map Char.toLower ≠
        "http://".toList := take_map_toLower_ne valid (by decide) notHttp 7
    have second : ((scheme.text.toList ++ "://".toList ++ latin rest).take 8).map Char.toLower ≠
        "https://".toList := take_map_toLower_ne valid (by decide) notHttps 8
    rw [if_neg first, if_neg second, name, if_pos ⟨long, separated⟩,
      if_neg (Nat.not_lt.mpr short), scheme?_text, ← width, List.drop_left]
    rfl

end scheme

theorem drop_length_takeWhile {α : Type} (p : α → Bool) (whole : List α) :
    whole.drop (whole.takeWhile p).length = whole.dropWhile p := by
  have parts := @List.takeWhile_append_dropWhile α p whole
  calc
    whole.drop (whole.takeWhile p).length =
        (whole.takeWhile p ++ whole.dropWhile p).drop (whole.takeWhile p).length := by rw [parts]
    _ = whole.dropWhile p := List.drop_left

section authority

variable {authority : Authority} {bytes rest : Bytes}

theorem isAuthorityEnd_ofNat_iff (b : UInt8) :
    isAuthorityEnd (Char.ofNat b.toNat) = true ↔ b = 47 ∨ b = 63 ∨ b = 35 := by
  revert b
  decide +kernel

/-- Nothing is left, or what ends an authority. -/
def BeginsAfterAuthority (rest : Bytes) : Prop :=
  rest = [] ∨ ∃ b later, rest = b :: later ∧ isAuthorityEnd (Char.ofNat b.toNat) = true

theorem splitAuthority_eq_ok (split : splitAuthority bytes = .ok (authority, rest)) :
    bytes = Bytes.ofString authority.text ++ rest ∧
      Authority.parse authority.text.toList = .ok authority ∧ BeginsAfterAuthority rest := by
  rw [splitAuthority] at split
  obtain ⟨found, read, pair⟩ := Except.map_eq_ok split
  cases pair
  have text := Authority.text_of_parse read
  have front : latin (bytes.take (authority.text.toList).length) = authority.text.toList := by
    rw [latin, List.map_take, text]
    exact (List.prefix_iff_eq_take.mp (List.takeWhile_prefix _)).symm
  have ascii : ∀ c ∈ authority.text.toList, c.toNat < 0x80 := fun c inside =>
    toNat_lt_of_isAuthorityChar (List.all_eq_true.mp authority.valid c inside)
  have written := ofString_of_latin front ascii
  rw [String.ofList_toList] at written
  refine ⟨?_, Authority.parse_text read, ?_⟩
  · rw [written, ← text, List.take_append_drop]
  · cases after : bytes.drop ((latin bytes).takeWhile (! isAuthorityEnd ·)).length with
    | nil => exact .inl rfl
    | cons b later =>
      refine .inr ⟨b, later, rfl, ?_⟩
      have last := List.head?_dropWhile_not (! isAuthorityEnd ·) (latin bytes)
      have cut : (latin bytes).dropWhile (! isAuthorityEnd ·) = latin (b :: later) := by
        rw [← drop_length_takeWhile, ← after, latin, latin, List.map_drop]
      rw [cut] at last
      simpa [latin] using last

theorem splitAuthority_text (read : Authority.parse authority.text.toList = .ok authority)
    (ends : BeginsAfterAuthority rest) :
    splitAuthority (Bytes.ofString authority.text ++ rest) = .ok (authority, rest) := by
  have inside : ∀ c ∈ authority.text.toList, (! isAuthorityEnd c) = true := by
    intro c listed
    rw [Authority.isAuthorityEnd_eq_false listed]
    rfl
  have name : (latin (Bytes.ofString authority.text ++ rest)).takeWhile (! isAuthorityEnd ·) =
      authority.text.toList := by
    rw [latin_append, Authority.latin_text, List.takeWhile_append_of_pos inside]
    rcases ends with rfl | ⟨b, later, rfl, ends⟩
    · simp [latin]
    · simp [latin, ends]
  rw [splitAuthority]
  simp only [name, read]
  have width : authority.text.toList.length = (Bytes.ofString authority.text).length := by
    rw [← length_latin, Authority.latin_text]
  rw [width, Except.map, List.drop_left]

end authority

/-- What reading an address leaves of it. -/
def IsRead : Uri → Prop
  | originForm target => target = .asterisk ∨ target.path.toList.head? = some '/'
  | authorityForm authority => parse (Bytes.ofString authority.text) = .ok (.authorityForm authority)
  | absoluteForm scheme authority target =>
    scheme.IsRead ∧ Authority.parse authority.text.toList = .ok authority ∧ authority.text ≠ "" ∧
      (target.path = "" ∨ target.path.toList.head? = some '/')

section reading

variable {authority : Authority} {scheme : Scheme} {bytes : Bytes} {uri : Uri}

theorem parseAuthority_eq_ok {fault : UriFault} (read : parseAuthority fault bytes = .ok uri) :
    ∃ authority, uri = .authorityForm authority ∧ Bytes.ofString authority.text = bytes := by
  rw [parseAuthority] at read
  split at read
  · cases read
  · rename_i authority rest split
    split at read
    · rename_i empty
      cases read
      obtain ⟨whole, -, -⟩ := splitAuthority_eq_ok split
      refine ⟨authority, rfl, ?_⟩
      rw [whole, empty, List.append_nil]
    · cases read

theorem path_of_parse_afterAuthority {rest : Bytes} {target : PathAndQuery}
    (begins : BeginsAfterAuthority rest) (read : PathAndQuery.parse rest = .ok target) :
    target.path = "" ∨ target.path.toList.head? = some '/' := by
  rcases begins with rfl | ⟨b, later, rfl, ends⟩
  · cases read
    exact .inr rfl
  · rcases (isAuthorityEnd_ofNat_iff b).mp ends with rfl | rfl | rfl
    · exact .inr (PathAndQuery.path_of_parse_slash read)
    · exact PathAndQuery.path_of_parse_question read
    · cases read
      exact .inr rfl

theorem isRead_of_parseAbsolute (schemeRead : scheme.IsRead)
    (read : parseAbsolute scheme bytes = .ok uri) : uri.IsRead := by
  rw [parseAbsolute] at read
  split at read
  · cases read
  split at read
  · cases read
  · rename_i authority rest split
    obtain ⟨-, authorityRead, begins⟩ := splitAuthority_eq_ok split
    split at read
    · cases read
    · rename_i nonempty
      obtain ⟨target, targetRead, rfl⟩ := Except.map_eq_ok read
      exact ⟨schemeRead, authorityRead, nonempty, path_of_parse_afterAuthority begins targetRead⟩

theorem isRead_of_parse (read : parse bytes = .ok uri) : uri.IsRead := by
  have whole := read
  rw [parse.eq_def] at read
  split at read
  · cases read
  split at read
  · cases read
  · split at read
    · cases read
      exact .inr rfl
    split at read
    · cases read
      exact .inl rfl
    obtain ⟨authority, rfl, text⟩ := parseAuthority_eq_ok read
    rw [IsRead, text]
    exact whole
  · rename_i b rest _
    split at read
    · rename_i slash
      cases slash
      obtain ⟨target, targetRead, rfl⟩ := Except.map_eq_ok read
      exact .inr (PathAndQuery.path_of_parse_slash targetRead)
    split at read
    · cases read
    · obtain ⟨authority, rfl, text⟩ := parseAuthority_eq_ok read
      rw [IsRead, text]
      exact whole
    · rename_i split
      exact isRead_of_parseAbsolute (isRead_of_splitScheme split) read

end reading

theorem targetText_of_ne {target : PathAndQuery} (path : target.path ≠ "") :
    targetText target = target.text := by
  rw [targetText, if_neg path, PathAndQuery.text]
  cases target.query with
  | none => simp
  | some query => simp [String.append_assoc]

theorem text_ne_empty {target : PathAndQuery} (path : target.path ≠ "") : target.text ≠ "" := by
  rw [PathAndQuery.text]
  cases target.query with
  | none => exact path
  | some query => simp [path]

theorem ofString_text_of_slash {target : PathAndQuery}
    (slash : target.path.toList.head? = some '/') :
    ∃ rest, Bytes.ofString target.text = 47 :: rest := by
  obtain ⟨chars, path⟩ := List.head?_eq_some_iff.mp slash
  have whole := target.text_eq
  rw [path] at whole
  rw [Bytes.ofString, whole]
  exact ⟨_, rfl⟩

theorem ne_empty_of_slash {target : PathAndQuery} (slash : target.path.toList.head? = some '/') :
    target.path ≠ "" := by
  intro empty
  rw [empty] at slash
  exact absurd slash (by decide)

theorem parse_of_splitScheme {bytes rest : Bytes} {scheme : Scheme}
    (short : bytes.length ≤ maxLength) (long : 1 < bytes.length) (first : bytes.head? ≠ some 47)
    (split : splitScheme bytes = .ok (some (scheme, rest))) :
    parse bytes = parseAbsolute scheme rest := by
  rw [parse.eq_def, if_neg (Nat.not_lt.mpr short)]
  match bytes with
  | [] => simp at long
  | [_] => simp at long
  | b :: c :: later =>
    have other : b ≠ 47 := fun same => first (same ▸ rfl)
    dsimp only
    rw [if_neg other, split]

theorem head?_text_ne (scheme : Scheme) (rest : Bytes) :
    (Bytes.ofString scheme.text ++ Bytes.ofString "://" ++ rest).head? ≠ some 47 := by
  intro slash
  have chars : (latin (Bytes.ofString scheme.text ++ Bytes.ofString "://" ++ rest)).head? =
      some '/' := by
    rw [latin, List.head?_map, slash]
    rfl
  rw [latin_append, latin_append, Scheme.latin_text, latin_separator] at chars
  cases text : scheme.text.toList with
  | nil =>
    rw [text] at chars
    exact absurd chars (by simp)
  | cons c later =>
    rw [text] at chars
    have same : c = '/' := by simpa using chars
    have valid := List.all_eq_true.mp scheme.valid c (text ▸ List.mem_cons_self)
    rw [same] at valid
    exact absurd valid (by decide)

/-- An address is read from its text, unless that is too long or shows a slash for an empty path. -/
theorem parse_text {uri : Uri} (read : uri.IsRead) (path : ∀ target ∈ uri.target?, target.path ≠ "")
    (short : (Bytes.ofString uri.text).length ≤ maxLength) :
    parse (Bytes.ofString uri.text) = .ok uri := by
  cases uri with
  | originForm target =>
    rcases read with rfl | slash
    · decide
    · have nonempty := ne_empty_of_slash slash
      have written : text (.originForm target) = target.text := targetText_of_ne nonempty
      have parsed := target.parse_text (text_ne_empty nonempty)
      obtain ⟨rest, bytes⟩ := ofString_text_of_slash slash
      rw [written, bytes] at short ⊢
      rw [bytes] at parsed
      rw [parse.eq_def, if_neg (Nat.not_lt.mpr short)]
      cases rest with
      | nil =>
        cases parsed
        rfl
      | cons b rest =>
        dsimp only
        rw [if_pos rfl, parsed]
        rfl
  | authorityForm authority => exact read
  | absoluteForm scheme authority target =>
    obtain ⟨schemeRead, authorityRead, filled, begins⟩ := read
    have nonempty := path target rfl
    have slash := begins.resolve_left nonempty
    have parsed := target.parse_text (text_ne_empty nonempty)
    have written : Bytes.ofString (text (.absoluteForm scheme authority target)) =
        Bytes.ofString scheme.text ++ Bytes.ofString "://" ++
          (Bytes.ofString authority.text ++ Bytes.ofString target.text) := by
      simp only [text, targetText_of_ne nonempty, Bytes.ofString_append, List.append_assoc]
    obtain ⟨rest, bytes⟩ := ofString_text_of_slash slash
    have ends : BeginsAfterAuthority (Bytes.ofString target.text) :=
      .inr ⟨47, rest, bytes, by decide⟩
    have after : Bytes.ofString authority.text ++ Bytes.ofString target.text ≠ [] := by
      simp [bytes]
    have absolute : parseAbsolute scheme
        (Bytes.ofString authority.text ++ Bytes.ofString target.text) =
          .ok (.absoluteForm scheme authority target) := by
      rw [parseAbsolute, if_neg after, splitAuthority_text authorityRead ends]
      dsimp only
      rw [if_neg filled, parsed]
      rfl
    rw [written] at short ⊢
    have long : 1 < (Bytes.ofString scheme.text ++ Bytes.ofString "://" ++
        (Bytes.ofString authority.text ++ Bytes.ofString target.text)).length := by
      have separator : (Bytes.ofString "://").length = 3 := by decide
      simp only [List.length_append, separator]
      omega
    rw [parse_of_splitScheme short long (head?_text_ne scheme _)
      (splitScheme_text schemeRead after), absolute]

end Uri

end Http

end RequestSigning
