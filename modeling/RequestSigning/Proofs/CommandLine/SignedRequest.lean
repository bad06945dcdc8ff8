import RequestSigning.CommandLine.SignedRequest
import RequestSigning.Proofs.Http.Header
import RequestSigning.Proofs.Http.Uri
import RequestSigning.Proofs.Text.JsonText
set_option autoImplicit false

namespace RequestSigning.CommandLine

open Http

section lastOfEach

variable {entries : List (String × String)}

/-- The values of a name, in order. -/
def valuesOf (entries : List (String × String)) (name : String) : List String :=
  entries.filterMap fun entry => if entry.1 = name then some entry.2 else none

theorem valuesOf_cons_of_eq {entry : String × String} {name : String} (here : entry.1 = name) :
    valuesOf (entry :: entries) name = entry.2 :: valuesOf entries name := by
  simp [valuesOf, here]

theorem valuesOf_cons_of_ne {entry : String × String} {name : String} (other : entry.1 ≠ name) :
    valuesOf (entry :: entries) name = valuesOf entries name := by
  simp [valuesOf, other]

theorem valuesOf_eq_nil {name : String} (absent : ∀ entry ∈ entries, entry.1 ≠ name) :
    valuesOf entries name = [] := by
  rw [valuesOf, List.filterMap_eq_nil_iff]
  intro entry inside
  rw [if_neg (absent entry inside)]

theorem lastOfEach_sublist (entries : List (String × String)) :
    (lastOfEach entries).Sublist entries := by
  fun_induction lastOfEach entries with
  | case1 => exact .slnil
  | case2 entry => exact .refl _
  | case3 entry next later same ih => exact ih.cons entry
  | case4 entry next later other ih => exact ih.cons_cons entry

/-- Where the names are in order, the last value of each is left. -/
theorem valuesOf_lastOfEach (ordered : entries.Pairwise fun left right => left.1 ≤ right.1)
    (name : String) :
    valuesOf (lastOfEach entries) name = (valuesOf entries name).getLast?.toList := by
  fun_induction lastOfEach entries with
  | case1 => rfl
  | case2 entry =>
    by_cases here : entry.1 = name
    · rw [valuesOf_cons_of_eq here]
      rfl
    · rw [valuesOf_cons_of_ne here]
      rfl
  | case3 entry next later same ih =>
    rw [ih ordered.of_cons]
    by_cases here : entry.1 = name
    · rw [valuesOf_cons_of_eq here, valuesOf_cons_of_eq (same ▸ here), List.getLast?_cons_cons]
    · rw [valuesOf_cons_of_ne here]
  | case4 entry next later other ih =>
    obtain ⟨before, ordered⟩ := List.pairwise_cons.mp ordered
    by_cases here : entry.1 = name
    · have absent : ∀ found ∈ next :: later, found.1 ≠ name := by
        intro found inside same
        have atMost : next.1 ≤ found.1 := by
          rcases List.mem_cons.mp inside with rfl | later
          · exact le_refl _
          · exact (List.pairwise_cons.mp ordered).1 found later
        rw [same, ← here] at atMost
        exact other (le_antisymm (before next List.mem_cons_self) atMost)
      rw [valuesOf_cons_of_eq here, valuesOf_cons_of_eq here, ih ordered, valuesOf_eq_nil absent]
      rfl
    · rw [valuesOf_cons_of_ne here, valuesOf_cons_of_ne here, ih ordered]

end lastOfEach

namespace SignedRequest

section received

/-- How a header is told. -/
def told (entry : HeaderName × HeaderValue) : String × String :=
  (entry.1.text, entry.2.text)

theorem valuesOf_told (headers : Headers) (name : HeaderName) :
    valuesOf (headers.entries.map told) name.text = (headers.values name).map HeaderValue.text := by
  rw [valuesOf, Headers.values, List.filterMap_map, List.map_filterMap]
  congr 1
  funext entry
  by_cases here : entry.1 = name
  · simp [told, here]
  · have other : entry.1.text ≠ name.text := fun same => here (HeaderName.ext_iff.mpr same)
    simp [told, here, other]

theorem eq_of_map_text {values others : List HeaderValue} (texts : ∀ value ∈ values, value.IsText)
    (otherTexts : ∀ value ∈ others, value.IsText)
    (same : values.map HeaderValue.text = others.map HeaderValue.text) : values = others := by
  have read {values : List HeaderValue} (texts : ∀ value ∈ values, value.IsText) :
      (values.map HeaderValue.text).map HeaderValue.ofText? = values.map some := by
    rw [List.map_map]
    exact List.map_congr_left fun value inside => (texts value inside).ofText?_text
  have both := congrArg (List.map HeaderValue.ofText?) same
  rw [read texts, read otherTexts] at both
  exact List.map_injective_iff.mpr (Option.some_injective _) both

theorem mapM_told {entries : List (HeaderName × HeaderValue)}
    (texts : ∀ entry ∈ entries, entry.2.IsText) :
    ((entries.map told).mapM fun (name, value) => do
      return (← HeaderName.ofText? name, ← HeaderValue.ofText? value)) = some entries := by
  induction entries with
  | nil => rfl
  | cons entry entries ih =>
    have rest := ih fun entry inside => texts entry (List.mem_cons_of_mem _ inside)
    have value := (texts entry List.mem_cons_self).ofText?_text
    rw [List.map_cons, List.mapM_cons, rest]
    simp [told, HeaderName.ofText?_text, value]

variable {request : Request}

/-- What is left of the headers, sorted. -/
theorem exists_latest (headers : Headers) :
    ∃ latest : Headers, latest.entries.Sublist headers.sorted ∧
      lastOfEach (headers.sorted.map told) = latest.entries.map told := by
  obtain ⟨entries, kept, same⟩ :=
    List.sublist_map_iff.mp (lastOfEach_sublist (headers.sorted.map told))
  exact ⟨⟨entries⟩, kept, same⟩

theorem values_latest {headers latest : Headers} (texts : headers.AreTexts)
    (latestTexts : latest.AreTexts)
    (same : lastOfEach (headers.sorted.map told) = latest.entries.map told) (name : HeaderName) :
    latest.values name = (headers.values name).getLast?.toList := by
  have ordered : (headers.sorted.map told).Pairwise fun left right => left.1 ≤ right.1 :=
    List.pairwise_map.mpr headers.pairwise_sorted
  have values := valuesOf_lastOfEach ordered name.text
  have sorted := valuesOf_told ⟨headers.sorted⟩ name
  rw [Headers.values_sorted] at sorted
  rw [same, valuesOf_told, sorted, List.getLast?_map] at values
  apply eq_of_map_text (latestTexts.values name)
  · intro value inside
    exact texts.values name value (List.mem_of_getLast? (Option.mem_toList.mp inside))
  · rw [values]
    cases (headers.values name).getLast? with
    | none => rfl
    | some value => rfl

/-- A receiver has the same request, with one value for each header, which is the last. -/
theorem received?_ofRequest (texts : request.headers.AreTexts) (uriRead : request.uri.IsRead)
    (path : ∀ target ∈ request.uri.target?, target.path ≠ "")
    (short : (Bytes.ofString request.uri.text).length ≤ Uri.maxLength)
    (expiration : UnixTime) (body : Body) :
    ∃ headers : Headers,
      (ofRequest request expiration).received? body = some { request with headers, body } ∧
      ∀ name, headers.values name = (request.headers.values name).getLast?.toList := by
  obtain ⟨latest, kept, same⟩ := exists_latest request.headers
  have latestTexts : latest.AreTexts := fun entry inside =>
    texts entry (Headers.mem_sorted (kept.subset inside))
  refine ⟨latest, ?_, values_latest texts latestTexts same⟩
  have method : Method.ofText? (ofRequest request expiration).method = some request.method :=
    dif_pos ⟨request.method.nonempty, request.method.token⟩
  have uri : Uri.parse (Bytes.ofString (ofRequest request expiration).url) = .ok request.uri :=
    Uri.parse_text uriRead path short
  have headers : (ofRequest request expiration).headers = latest.entries.map told := same
  have entries := mapM_told latestTexts
  simp only [received?, method, uri, headers, Except.toOption, bind, Option.bind_some]
  simp only [bind] at entries
  rw [entries]
  rfl

end received

section printed

open JsonText

/-- What a member of a printed request says. -/
inductive Member where
  | text (value : String)
  | object (members : List (String × String))

namespace Member

def printed : Member → String
  | text value => quote value
  | object members => JsonText.object 2 (members.map fun (name, value) => (name, quote value))

def read (chars : List Char) : Option (Member × List Char) :=
  match readQuoted chars with
  | some (value, rest) => some (text value, rest)
  | none => (readObject readQuoted chars).map fun (members, rest) => (object members, rest)

theorem readsBack (member : Member) : ReadsBack read printed member := by
  intro rest
  cases member with
  | text value => rw [printed, skip_quote, read, readQuoted_quote]
  | object members =>
    have reads : ∀ member ∈ members, ReadsBack readQuoted quote member.2 := by
      intro member _ rest
      rw [skip_quote, readQuoted_quote]
    have whole := readObject_object reads 2 rest
    obtain ⟨later, brace⟩ := toList_object 2 (members.map fun (name, value) => (name, quote value))
    rw [brace] at whole
    rw [printed, brace]
    have plain : skip ('\x7b' :: later ++ rest) = '\x7b' :: later ++ rest := rfl
    have unquoted : readQuoted ('\x7b' :: later ++ rest) = none := rfl
    rw [plain, read, unquoted, whole]
    rfl

end Member

/-- A request is read from what is printed of it, whatever the order of its parts. -/
def read? (text : String) : Option SignedRequest := do
  let (members, rest) ← readObject Member.read text.toList
  match members.lookup "method", members.lookup "url", members.lookup "headers",
    members.lookup "expires_at", skip rest with
  | some (.text method), some (.text url), some (.object headers), some (.text expiresAt), [] =>
    return ⟨method, url, headers, expiresAt⟩
  | _, _, _, _, _ => none

/-- What is printed, with or without a line end, tells the whole. -/
theorem read?_text (signed : SignedRequest) : read? (signed.text ++ "\n") = some signed := by
  let members : List (String × Member) :=
    [("method", .text signed.method), ("url", .text signed.url),
      ("headers", .object signed.headers), ("expires_at", .text signed.expiresAt)]
  have printed : signed.text =
      object 0 (members.map fun (name, value) => (name, value.printed)) := by
    simp only [text, members, List.map_cons, List.map_nil, Member.printed]
  have reads : ∀ member ∈ members, ReadsBack Member.read Member.printed member.2 :=
    fun member _ => Member.readsBack member.2
  have read := readObject_object reads 0 "\n".toList
  rw [read?, String.toList_append, printed, read]
  rfl

end printed

end SignedRequest

end RequestSigning.CommandLine
