import RequestSigning.Proofs.Signing.Signer
import RequestSigning.Proofs.Text.Decoding
set_option autoImplicit false

namespace RequestSigning

namespace Http.HeaderValue

theorem isText_iff (value : HeaderValue) : value.IsText ↔ Utf8.isValid value.bytes = true := by
  constructor
  · rintro ⟨text, bytes⟩
    rw [bytes, Utf8.isValid, Bytes.ofString, Utf8.decode_encode]
    rfl
  · intro valid
    rw [Utf8.isValid] at valid
    cases read : Utf8.decode value.bytes with
    | error report =>
      rw [read] at valid
      cases valid
    | ok chars =>
      refine ⟨String.ofList chars, ?_⟩
      rw [Bytes.ofString, String.toList_ofList, Utf8.decode_eq_ok_iff.mp read]

/-- A value is told by its text exactly where it is one. -/
theorem ofString_text_eq_bytes_iff (value : HeaderValue) :
    Bytes.ofString value.text = value.bytes ↔ value.IsText := by
  constructor
  · intro same
    exact ⟨value.text, same.symm⟩
  · rintro ⟨text, bytes⟩
    rw [HeaderValue.text, bytes, Bytes.toStringLossy_ofString]

theorem IsText.eq_of_text_eq {value other : HeaderValue} (isText : value.IsText)
    (alsoText : other.IsText) (same : value.text = other.text) : value = other := by
  apply bytes_injective
  rw [← value.ofString_text_eq_bytes_iff.mpr isText, same,
    other.ofString_text_eq_bytes_iff.mpr alsoText]

/-- Values with one text that stands for no unreadable bytes are one value. -/
theorem eq_of_text_eq {value other : HeaderValue} (same : value.text = other.text)
    (readable : Utf8.replacement ∉ value.text.toList) : value = other := by
  have texts : Utf8.decodeLossy value.bytes = Utf8.decodeLossy other.bytes := by
    simpa only [HeaderValue.text, Bytes.toStringLossy, String.ofList_inj] using same
  rw [HeaderValue.text, Bytes.toStringLossy, String.toList_ofList] at readable
  apply bytes_injective
  rw [← Utf8.encode_decodeLossy readable, texts, Utf8.encode_decodeLossy (texts ▸ readable)]

end Http.HeaderValue

namespace Signing

open Http

theorem signingString_nil (request : Request) : signingString request [] = "" := rfl

/-- What follows the line before those of `names`. -/
def remainder (request : Request) (names : List String) : List Char :=
  if names = [] then [] else '\n' :: (signingString request names).toList

theorem toList_signingString_cons (request : Request) (name : String) (names : List String) :
    (signingString request (name :: names)).toList =
      (lowercase name ++ ": ").toList ++
        ((nameValue request (lowercase name)).toList ++ remainder request names) := by
  rw [signingString_eq_intercalate, ← List.append_assoc, ← String.toList_append, remainder]
  cases names with
  | nil => simp [line]
  | cons next later =>
    rw [if_neg (List.cons_ne_nil _ _), List.map_cons, List.map_cons, String.intercalate_cons_cons,
      String.toList_append, String.toList_append, ← List.map_cons, ← signingString_eq_intercalate,
      List.append_assoc]
    rfl

/-- A value ends with its line, whatever lines follow. -/
theorem takeWhile_append_remainder (request : Request) (names : List String) {value : List Char}
    (one : '\n' ∉ value) :
    (value ++ remainder request names).takeWhile (· ≠ '\n') = value := by
  have inLine : ∀ c ∈ value, decide (c ≠ '\n') = true := by
    intro c inside
    exact decide_eq_true fun same => one (same ▸ inside)
  rw [List.takeWhile_append_of_pos inLine, remainder]
  split <;> simp

/-- Of two requests the same names make the same text exactly where they have the same values. -/
theorem signingString_eq_iff_values (first second : Request) (names : List String) :
    signingString first names = signingString second names ↔
      ∀ name ∈ names, nameValue first (lowercase name) = nameValue second (lowercase name) := by
  constructor
  · intro same
    induction names with
    | nil => exact nofun
    | cons name names ih =>
      have chars := congrArg String.toList same
      rw [toList_signingString_cons, toList_signingString_cons, List.append_cancel_left_eq] at chars
      have value := congrArg (List.takeWhile (· ≠ '\n')) chars
      rw [takeWhile_append_remainder _ _ (newline_not_mem_nameValue _ _),
        takeWhile_append_remainder _ _ (newline_not_mem_nameValue _ _)] at value
      rw [value, List.append_cancel_left_eq] at chars
      have later : signingString first names = signingString second names := by
        by_cases none : names = []
        · rw [none, signingString_nil, signingString_nil]
        · rw [remainder, remainder, if_neg none, if_neg none, List.cons_inj_right] at chars
          exact String.toList_inj.mp chars
      intro other listed
      rcases List.mem_cons.mp listed with rfl | listed
      · exact String.toList_inj.mp value
      · exact ih later other listed
  · intro values
    exact signingString_congr rfl (List.map_congr_left values)

/-- A name other than the address's own has the text of its header's first value. -/
theorem nameValue_of_header {request : Request} {header : HeaderName} {value : HeaderValue}
    (apart : header ≠ .host) (present : request.headers.get? header = some value) :
    nameValue request header.text = value.text := by
  have target : header.text ≠ requestTargetName := by
    intro same
    have opening : '(' ∉ header.text.toList := header.not_mem_text (by decide)
    rw [same] at opening
    exact opening (by decide)
  have host : header.text ≠ HeaderName.host.text := fun same => apart (HeaderName.ext_iff.mpr same)
  rw [nameValue, if_neg target, if_neg host, header.ofText?_text, Option.map_some, headerText,
    present]
  rfl

theorem signingString_append_cons (request : Request) (earlier : List String) (name : String)
    (later : List String) :
    signingString request (earlier ++ name :: later) =
      "\n".intercalate
        (earlier.map (line request) ++ line request name :: later.map (line request)) := by
  rw [signingString_eq_intercalate, List.map_append, List.map_cons]

/-- The line of a header is its name and the text of its first value, which spells the bytes that
are sent exactly where these are UTF-8. Two requests that differ in the first value of one listed
header have one text exactly where the two values have; values that differ then are not both UTF-8,
and their text stands for unreadable bytes. -/
theorem signingString_eq_iff_of_header (first second : Request) (header : HeaderName)
    (value other : HeaderValue) (earlier later : List String) (name : String)
    (named : lowercase name = header.text) (apart : header ≠ .host)
    (present : first.headers.get? header = some value)
    (altered : second.headers.get? header = some other) (same : first.SameBut [header] second) :
    signingString first (earlier ++ name :: later) =
        "\n".intercalate (earlier.map (line first) ++
          (lowercase name ++ ": " ++ value.text) :: later.map (line first)) ∧
      (Bytes.ofString (lowercase name ++ ": " ++ value.text) =
          Bytes.ofString (lowercase name ++ ": ") ++ value.bytes ↔
        Utf8.isValid value.bytes = true) ∧
      (signingString first (earlier ++ name :: later) =
          signingString second (earlier ++ name :: later) ↔ value.text = other.text) ∧
      (value ≠ other → value.text = other.text →
        Utf8.replacement ∈ value.text.toList ∧
          ¬ (Utf8.isValid value.bytes = true ∧ Utf8.isValid other.bytes = true)) := by
  have shown : nameValue first (lowercase name) = value.text := by
    rw [named, nameValue_of_header apart present]
  have alsoShown : nameValue second (lowercase name) = other.text := by
    rw [named, nameValue_of_header apart altered]
  refine ⟨?_, ?_, ?_, ?_⟩
  · rw [signingString_append_cons, line, shown]
  · rw [← value.isText_iff, ← value.ofString_text_eq_bytes_iff, Bytes.ofString_append,
      List.append_cancel_left_eq]
  · rw [signingString_eq_iff_values]
    constructor
    · intro values
      rw [← shown, ← alsoShown]
      exact values name (List.mem_append_right _ List.mem_cons_self)
    · intro texts listedName _
      by_cases here : lowercase listedName = header.text
      · rw [here, ← named, shown, alsoShown, texts]
      · symm
        apply nameValue_of_sameBut same
        · simpa using fun host => apart host.symm
        · intro changed inside
          rw [List.mem_singleton.mp inside, lowercase_lowercase]
          exact fun there => here there.symm
  · intro different texts
    refine ⟨?_, ?_⟩
    · by_contra readable
      exact different (HeaderValue.eq_of_text_eq texts readable)
    · rintro ⟨valid, alsoValid⟩
      have isText := value.isText_iff.mpr valid
      exact different (isText.eq_of_text_eq (other.isText_iff.mpr alsoValid) texts)

/-- A value that is no UTF-8 has another text than one that is a letter. -/
theorem signingString_ne_of_letter :
    let marked : HeaderName := ⟨"x-a", by decide, by decide, by decide⟩
    let letter : HeaderValue := ⟨[97], by decide⟩
    let unreadable : HeaderValue := ⟨[255], by decide⟩
    let request (value : HeaderValue) : Request :=
      { method := .get
        uri := .originForm .root
        headers := Headers.empty.append marked value
        body := [] }
    lowercase "X-A" = marked.text ∧ marked ≠ .host ∧
      (request letter).headers.get? marked = some letter ∧
      (request unreadable).headers.get? marked = some unreadable ∧
      (request letter).SameBut [marked] (request unreadable) ∧
      signingString (request letter) ["date", "X-A"] ≠
        signingString (request unreadable) ["date", "X-A"] := by
  intro marked letter unreadable request
  have named : lowercase "X-A" = marked.text := by decide
  have apart : marked ≠ .host := by decide
  have present : (request letter).headers.get? marked = some letter := by decide
  have altered : (request unreadable).headers.get? marked = some unreadable := by decide
  have same : (request letter).SameBut [marked] (request unreadable) := by
    refine ⟨rfl, rfl, fun name outside => ?_⟩
    have : marked ≠ name := fun here => outside (List.mem_singleton.mpr here.symm)
    simp only [request, Headers.values_append, this, ↓reduceIte]
  have texts := (signingString_eq_iff_of_header (request letter) (request unreadable) marked letter
    unreadable ["date"] [] "X-A" named apart present altered same).2.2.1
  exact ⟨named, apart, present, altered, same, fun one => absurd (texts.mp one) (by decide +kernel)⟩

/-- Two values that are no UTF-8 have one text, which spells neither. -/
theorem signingString_eq_of_unreadable :
    let marked : HeaderName := ⟨"x-a", by decide, by decide, by decide⟩
    let sent : HeaderValue := ⟨[255], by decide⟩
    let other : HeaderValue := ⟨[254], by decide⟩
    let request (value : HeaderValue) : Request :=
      { method := .get
        uri := .originForm .root
        headers := Headers.empty.append marked value
        body := [] }
    (request sent).headers.get? marked = some sent ∧
      (request other).headers.get? marked = some other ∧ sent ≠ other ∧
      Bytes.ofString (signingString (request sent) ["x-a"]) ≠
        Bytes.ofString "x-a: " ++ sent.bytes ∧
      signingString (request sent) ["x-a"] = signingString (request other) ["x-a"] := by
  decide +kernel

end Signing

end RequestSigning
