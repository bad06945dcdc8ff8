import RequestSigning.Proofs.Http.Header
import RequestSigning.Proofs.Signing.Names
import RequestSigning.Proofs.Text.Utf8
import RequestSigning.Signing.Canonical
set_option autoImplicit false

namespace RequestSigning

namespace Http

theorem HeaderValue.newline_not_mem_text (value : HeaderValue) : '\n' ∉ value.text.toList := by
  rw [HeaderValue.text, Bytes.toStringLossy, String.toList_ofList]
  intro inside
  have byte := Utf8.mem_of_mem_decodeLossy inside (by decide) (by decide)
  exact absurd (List.all_eq_true.mp value.valid _ byte) (by decide)

theorem Method.newline_not_mem_text (method : Method) : '\n' ∉ method.text.toList := by
  intro inside
  exact absurd (List.all_eq_true.mp method.token _ inside) (by decide)

theorem PathAndQuery.newline_not_mem_text (target : PathAndQuery) :
    '\n' ∉ target.text.toList := by
  have path : '\n' ∉ target.path.toList := fun inside =>
    absurd (List.all_eq_true.mp target.path_valid _ inside) (by decide)
  rw [PathAndQuery.text]
  split
  · exact path
  · rename_i query found
    have query : '\n' ∉ query.toList := fun inside =>
      absurd (List.all_eq_true.mp (target.query_valid query found) _ inside) (by decide)
    simp [path, query]

theorem Authority.newline_not_mem_host (authority : Authority) :
    '\n' ∉ authority.host.toList := by
  have valid : '\n' ∉ authority.text.toList := fun inside =>
    absurd (List.all_eq_true.mp authority.valid _ inside) (by decide)
  have trailing : '\n' ∉ authority.hostAndPort := by
    rw [Authority.hostAndPort, List.mem_reverse]
    intro inside
    exact valid (List.mem_reverse.mp ((List.takeWhile_sublist _).subset inside))
  rw [Authority.host]
  split
  · rename_i rest bracketed
    rw [bracketed] at trailing
    rw [String.toList_ofList]
    intro inside
    simp only [List.cons_append, List.mem_cons, List.mem_append, List.not_mem_nil, or_false] at inside
    rcases inside with open_ | inside | close
    · exact absurd open_ (by decide)
    · exact trailing (List.mem_cons_of_mem _ ((List.takeWhile_sublist _).subset inside))
    · exact absurd close (by decide)
  · rw [String.toList_ofList]
    intro inside
    exact trailing ((List.takeWhile_sublist _).subset inside)

end Http

namespace Signing

open Http

theorem requestTarget_eq (method : Method) (uri : Uri) :
    requestTarget method uri = lowercase method.text ++ " " ++ (uri.target?.getD .root).text := by
  rw [requestTarget]
  cases uri.target? <;> rfl

theorem newline_not_mem_requestTarget (method : Method) (uri : Uri) :
    '\n' ∉ (requestTarget method uri).toList := by
  have verb : '\n' ∉ (lowercase method.text).toList := fun inside =>
    method.newline_not_mem_text (mem_of_mem_lowercase inside (by decide))
  rw [requestTarget_eq, String.toList_append, String.toList_append]
  simp only [List.mem_append, not_or]
  exact ⟨⟨verb, by decide⟩, PathAndQuery.newline_not_mem_text _⟩

theorem newline_not_mem_headerText (headers : Headers) (name : HeaderName) :
    '\n' ∉ (headerText headers name).toList := by
  rw [headerText]
  cases headers.get? name with
  | none => exact List.not_mem_nil
  | some value => exact value.newline_not_mem_text

theorem newline_not_mem_toString (n : Nat) : '\n' ∉ (toString n).toList := by
  rw [Nat.toString_eq_repr, Nat.toList_repr]
  intro inside
  exact absurd (Nat.isDigit_of_mem_toDigits (by decide) (by decide) inside) (by decide)

theorem newline_not_mem_hostText (uri : Uri) (headers : Headers) :
    '\n' ∉ (hostText uri headers).toList := by
  rw [hostText]
  split
  · rename_i host found
    have host : '\n' ∉ host.toList := by
      obtain ⟨found, -⟩ := Option.filter_eq_some_iff.mp found
      obtain ⟨authority, -, rfl⟩ := Option.map_eq_some_iff.mp found
      exact authority.newline_not_mem_host
    split
    · rename_i port _
      have digits := newline_not_mem_toString port
      change '\n' ∉ (_ ++ ":" ++ toString port).toList
      rw [String.toList_append, String.toList_append]
      simp only [List.mem_append, not_or]
      exact ⟨⟨host, by decide⟩, digits⟩
    · exact host
  · exact newline_not_mem_headerText headers .host

theorem newline_not_mem_nameValue (request : Request) (name : String) :
    '\n' ∉ (nameValue request name).toList := by
  rw [nameValue]
  split
  · exact newline_not_mem_requestTarget request.method request.uri
  split
  · exact newline_not_mem_hostText request.uri request.headers
  · cases HeaderName.ofText? name with
    | none => exact List.not_mem_nil
    | some header => exact newline_not_mem_headerText request.headers header

/-- The text of the first value that was added under a name, and nothing where there is none. -/
def firstText (headers : Headers) (name : String) : String :=
  match headers.entries.find? (·.1.text = name) with
  | some (_, value) => value.bytes.toStringLossy
  | none => ""

/-- What a name in lower case is to stand for: the request target, the host, or the first value
of a header. -/
def renderedValue (request : Request) (name : String) : String :=
  if name = "(request-target)" then
    lowercase request.method.text ++ " " ++ (request.uri.target?.getD .root).text
  else if name = "host" then
    match request.uri.host?, request.uri.authority?.bind Authority.port? with
    | some host, some port => host ++ ":" ++ toString port
    | some host, none => host
    | none, _ => firstText request.headers "host"
  else firstText request.headers name

theorem headerText_eq_firstText (headers : Headers) (name : HeaderName) :
    headerText headers name = firstText headers name.text := by
  simp only [headerText, firstText, Headers.get?_eq_find?, HeaderName.ext_iff]
  cases headers.entries.find? (·.1.text = name.text) <;> rfl

/-- No header is of a name that cannot be read. -/
theorem firstText_of_unread (headers : Headers) {name : String}
    (unread : HeaderName.ofText? name = none) : firstText headers name = "" := by
  have absent : headers.entries.find? (·.1.text = name) = none := by
    rw [List.find?_eq_none]
    intro entry _ named
    rw [← of_decide_eq_true named, HeaderName.ofText?_text] at unread
    cases unread
  rw [firstText, absent]

theorem hostText_eq_renderedValue (request : Request) :
    hostText request.uri request.headers = renderedValue request "host" := by
  rw [hostText, renderedValue, if_neg (by decide), if_pos rfl,
    headerText_eq_firstText request.headers .host]
  cases request.uri.host? with
  | none => rfl
  | some host => cases request.uri.authority?.bind Authority.port? <;> rfl

theorem nameValue_eq_renderedValue (request : Request) (name : String) :
    nameValue request (lowercase name) = renderedValue request (lowercase name) := by
  rw [nameValue]
  split
  · rename_i target
    rw [target, requestTarget_eq]
    rfl
  · rename_i target
    split
    · rename_i host
      rw [host]
      exact hostText_eq_renderedValue request
    · rename_i host
      have rendered : renderedValue request (lowercase name) =
          firstText request.headers (lowercase name) := (if_neg target).trans (if_neg host)
      rw [rendered]
      cases read : HeaderName.ofText? (lowercase name) with
      | none => exact (firstText_of_unread request.headers read).symm
      | some header =>
        have written := HeaderName.text_of_ofText? read
        rw [lowercase_lowercase] at written
        rw [← written]
        exact headerText_eq_firstText request.headers header

/-- The line of a name. -/
def line (request : Request) (name : String) : String :=
  lowercase name ++ ": " ++ nameValue request (lowercase name)

theorem newline_not_mem_line (request : Request) {name : String} (signable : IsSignable name) :
    '\n' ∉ (line request name).toList := by
  rw [line, String.toList_append, String.toList_append]
  simp only [List.mem_append, not_or]
  exact ⟨⟨signable.newline_not_mem, by decide⟩, newline_not_mem_nameValue request _⟩

/-- What stands before the first colon of a line, and what stands after the space that follows. -/
def readLine (line : List Char) : String × String :=
  (String.ofList (line.takeWhile (· ≠ ':')), String.ofList ((line.dropWhile (· ≠ ':')).drop 2))

theorem readLine_line (request : Request) {name : String} (signable : IsSignable name) :
    readLine (line request name).toList = (lowercase name, nameValue request (lowercase name)) := by
  have word : ∀ c ∈ (lowercase name).toList, decide (c ≠ ':') = true := by
    intro c inside
    have : c ≠ ':' := fun same => signable.colon_not_mem (same ▸ inside)
    simpa using this
  have separator : ": ".toList = [':', ' '] := by decide
  rw [readLine, line, String.toList_append, String.toList_append, List.append_assoc,
    List.takeWhile_append_of_pos word, List.dropWhile_append_of_pos word, separator]
  simp

/-- The names and values that a text is read for, line by line. -/
def readLines (text : String) : List (String × String) :=
  if text = "" then [] else (text.toList.splitOn '\n').map readLine

theorem signingString_eq_intercalate (request : Request) (names : List String) :
    signingString request names = "\n".intercalate (names.map (line request)) := rfl

theorem signingString_eq_empty_iff (request : Request) {names : List String}
    (signable : ∀ name ∈ names, IsSignable name) :
    signingString request names = "" ↔ names = [] := by
  constructor
  · intro empty
    cases names with
    | nil => rfl
    | cons name rest =>
      have word := (signable name List.mem_cons_self).lowercase_ne_empty
      rw [signingString_eq_intercalate, List.map_cons, line, String.append_assoc,
        String.intercalate_cons_append, String.append_eq_empty_iff] at empty
      exact absurd empty.1 word
  · rintro rfl
    rfl

/-- No value takes up a second line or gives rise to another name. -/
theorem readLines_signingString (request : Request) {names : List String}
    (signable : ∀ name ∈ names, IsSignable name) :
    readLines (signingString request names) =
      names.map fun name => (lowercase name, nameValue request (lowercase name)) := by
  by_cases none : names = []
  · rw [readLines, if_pos ((signingString_eq_empty_iff request signable).mpr none), none]
    rfl
  · have lines : (signingString request names).toList.splitOn '\n' =
        names.map fun name => (line request name).toList := by
      rw [signingString_eq_intercalate, String.toList_intercalate, List.map_map]
      apply List.splitOn_intercalate
      · intro chars inside
        obtain ⟨name, listed, rfl⟩ := List.mem_map.mp inside
        exact newline_not_mem_line request (signable name listed)
      · simpa using none
    have filled : signingString request names ≠ "" := fun empty =>
      none ((signingString_eq_empty_iff request signable).mp empty)
    rw [readLines, if_neg filled, lines, List.map_map]
    apply List.map_congr_left
    intro name listed
    exact readLine_line request (signable name listed)

/-- A text is made of the names in lower case and their values alone. -/
theorem signingString_congr {first second : Request} {names others : List String}
    (sameNames : names.map lowercase = others.map lowercase)
    (sameValues : (names.map fun name => nameValue first (lowercase name)) =
      others.map fun name => nameValue second (lowercase name)) :
    signingString first names = signingString second others := by
  have joined (request : Request) (names : List String) :
      names.map (line request) = List.zipWith (fun name value => name ++ ": " ++ value)
        (names.map lowercase) (names.map fun name => nameValue request (lowercase name)) := by
    rw [List.zipWith_map, List.zipWith_self]
    rfl
  rw [signingString_eq_intercalate, signingString_eq_intercalate, joined first, joined second,
    sameNames, sameValues]

/-- Two requests have one text to sign exactly where the names and values agree place by place,
and every text is read line by line for the names and values that it was made of. -/
theorem signingString_eq_iff (first second : Request) (names others : List String)
    (signable : ∀ name ∈ names, IsSignable name) (alsoSignable : ∀ name ∈ others, IsSignable name) :
    (signingString first names = signingString second others ↔
      names.map lowercase = others.map lowercase ∧
        (names.map fun name => renderedValue first (lowercase name)) =
          others.map fun name => renderedValue second (lowercase name)) ∧
    readLines (signingString first names) =
      names.map fun name => (lowercase name, renderedValue first (lowercase name)) := by
  simp only [← nameValue_eq_renderedValue]
  refine ⟨⟨?_, fun ⟨sameNames, sameValues⟩ => signingString_congr sameNames sameValues⟩,
    readLines_signingString first signable⟩
  intro same
  have pairs := congrArg readLines same
  rw [readLines_signingString first signable, readLines_signingString second alsoSignable] at pairs
  have left := congrArg (List.map Prod.fst) pairs
  have right := congrArg (List.map Prod.snd) pairs
  rw [List.map_map, List.map_map] at left right
  exact ⟨left, right⟩

/-- The host of an address and that of a header are one value. -/
theorem signingString_eq_of_host :
    let first : Request :=
      { method := .get
        uri := .originForm .root
        headers := Headers.empty.append .host ⟨[97], by decide⟩
        body := [] }
    let second : Request :=
      { method := .get
        uri := .authorityForm ⟨"a", by decide⟩
        headers := .empty
        body := [] }
    let names := ["Host", "(Request-Target)"]
    let others := ["host", "(request-target)"]
    (∀ name ∈ names, IsSignable name) ∧ (∀ name ∈ others, IsSignable name) ∧
      signingString first names = signingString second others := by
  intro first second names others
  have signable : ∀ name ∈ names, IsSignable name := by decide
  have alsoSignable : ∀ name ∈ others, IsSignable name := by decide
  have values : (names.map fun name => renderedValue first (lowercase name)) =
      others.map fun name => renderedValue second (lowercase name) := by decide +kernel
  have texts := (signingString_eq_iff first second names others signable alsoSignable).1
  exact ⟨signable, alsoSignable, texts.mpr ⟨by decide +kernel, values⟩⟩

end Signing

end RequestSigning
