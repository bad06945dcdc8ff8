import RequestSigning.Pem
import RequestSigning.Proofs.Bytes
import RequestSigning.Proofs.Text.Base64
import RequestSigning.Proofs.Text.Blank
import RequestSigning.Proofs.Text.Utf8
set_option autoImplicit false

namespace RequestSigning.Pem

section Markers

variable {marker owed text left right : Bytes}

theorem skipPast_append (marker owed rest : Bytes) :
    skipPast marker owed (owed ++ rest) = some rest := by
  induction owed with
  | nil => cases rest <;> rfl
  | cons m owed ih => rw [List.cons_append, skipPast, if_pos rfl, ih]

theorem skipPast_of_ne {m b : UInt8} (other : b ≠ m) (owed rest : Bytes) :
    skipPast marker (m :: owed) (b :: rest) = skipPast marker marker rest := by
  rw [skipPast, if_neg other]

/-- A text that the search for a marker goes past and forgets. -/
def Passes (marker text : Bytes) : Prop :=
  ∀ rest, skipPast marker marker (text ++ rest) = skipPast marker marker rest

theorem Passes.nil (marker : Bytes) : Passes marker [] :=
  fun _ => rfl

theorem Passes.append (first : Passes marker left) (second : Passes marker right) :
    Passes marker (left ++ right) := by
  intro rest
  rw [List.append_assoc, first, second]

theorem Passes.flatMap {α : Type} {f : α → Bytes} {parts : List α}
    (each : ∀ part ∈ parts, Passes marker (f part)) : Passes marker (parts.flatMap f) := by
  induction parts with
  | nil => exact .nil marker
  | cons part parts ih =>
    obtain ⟨here, later⟩ := List.forall_mem_cons.mp each
    exact here.append (ih later)

theorem passes_of_not_mem {m : UInt8} (owed : Bytes) (free : m ∉ text) :
    Passes (m :: owed) text := by
  intro rest
  induction text with
  | nil => rfl
  | cons b text ih =>
    obtain ⟨other, later⟩ := List.ne_and_not_mem_of_not_mem_cons free
    rw [List.cons_append, skipPast_of_ne other.symm, ih later]

theorem Passes.skipPast_eq_none {m : UInt8} {owed : Bytes} (passes : Passes (m :: owed) text) :
    skipPast (m :: owed) (m :: owed) text = none := by
  have through := passes []
  rwa [List.append_nil] at through

theorem readUntil_of_skipPast {rest : Bytes}
    (found : skipPast marker marker (text ++ marker ++ rest) = some rest) :
    readUntil marker (text ++ marker ++ rest) = some (text, rest) := by
  have before : (text ++ marker ++ rest).length - (rest.length + marker.length) = text.length := by
    simp only [List.length_append]
    omega
  rw [readUntil, found, Option.map_some, before, List.append_assoc, List.take_left]

theorem Passes.readUntil (passes : Passes marker text) (rest : Bytes) :
    readUntil marker (text ++ marker ++ rest) = some (text, rest) :=
  readUntil_of_skipPast (by rw [List.append_assoc, passes, skipPast_append])

end Markers

section Framing

variable {before tag payload : Bytes}

/-- What stands between the lines of a block is found whatever comes before and after. -/
theorem Frame.find?_block (ahead : Passes beginMarker before) (plain : 45 ∉ tag)
    (passes : Passes endMarker payload) (begins : ∀ b ∈ payload.head?, isFrameBlank b = false)
    (rest : Bytes) :
    Frame.find? (before ++ beginMarker ++
        (tag ++ dashes ++ 10 :: (payload ++ endMarker ++ (tag ++ dashes ++ rest)))) =
      some ⟨tag, payload, tag⟩ := by
  have skipped :
      (10 :: (payload ++ endMarker ++ (tag ++ dashes ++ rest))).dropWhile isFrameBlank =
        payload ++ endMarker ++ (tag ++ dashes ++ rest) := by
    rw [List.dropWhile_cons_of_pos rfl]
    cases payload with
    | nil => rfl
    | cons b payload =>
      exact List.dropWhile_cons_of_neg (by rw [begins b rfl]; exact Bool.false_ne_true)
  have named : Passes dashes tag := passes_of_not_mem _ plain
  simp only [Frame.find?, ahead.readUntil, named.readUntil, skipped, passes.readUntil,
    Option.bind_eq_bind, Option.bind_some, Option.pure_def]

end Framing

section Splitting

variable {line data : Bytes} {lines : List Bytes}

/-- A line that is not empty leaves the search for an empty one with a line end to come. -/
theorem skipPast_line (filled : line ≠ []) (plain : 10 ∉ line) {owed : Bytes} (rest : Bytes) :
    skipPast [10, 10] (10 :: owed) (line ++ 10 :: rest) = skipPast [10, 10] [10] rest := by
  cases line with
  | nil => exact (filled rfl).elim
  | cons b line =>
    obtain ⟨other, later⟩ := List.ne_and_not_mem_of_not_mem_cons plain
    rw [List.cons_append, skipPast_of_ne other.symm, passes_of_not_mem [10] later, skipPast,
      if_pos rfl]

theorem skipPast_lines (filled : ∀ line ∈ lines, line ≠ []) (plain : ∀ line ∈ lines, 10 ∉ line)
    (rest : Bytes) :
    skipPast [10, 10] [10] (lines.flatMap (· ++ [10]) ++ rest) = skipPast [10, 10] [10] rest := by
  induction lines with
  | nil => rfl
  | cons line lines ih =>
    obtain ⟨here, later⟩ := List.forall_mem_cons.mp filled
    obtain ⟨plainHere, plainLater⟩ := List.forall_mem_cons.mp plain
    rw [List.flatMap_cons, List.append_assoc, List.append_assoc, List.singleton_append,
      skipPast_line here plainHere, ih later plainLater]

theorem skipPast_lines_of_ne (nonempty : lines ≠ []) (filled : ∀ line ∈ lines, line ≠ [])
    (plain : ∀ line ∈ lines, 10 ∉ line) (rest : Bytes) :
    skipPast [10, 10] [10, 10] (lines.flatMap (· ++ [10]) ++ rest) =
      skipPast [10, 10] [10] rest := by
  cases lines with
  | nil => exact (nonempty rfl).elim
  | cons line lines =>
    obtain ⟨here, later⟩ := List.forall_mem_cons.mp filled
    obtain ⟨plainHere, plainLater⟩ := List.forall_mem_cons.mp plain
    rw [List.flatMap_cons, List.append_assoc, List.append_assoc, List.singleton_append,
      skipPast_line here plainHere, skipPast_lines later plainLater]

theorem flatMap_lines (nonempty : lines ≠ []) :
    lines.flatMap (· ++ [10]) = [(10 : UInt8)].intercalate lines ++ [10] := by
  induction lines with
  | nil => exact (nonempty rfl).elim
  | cons line lines ih =>
    cases lines with
    | nil => simp only [List.flatMap_cons, List.flatMap_nil, List.append_nil, List.intercalate_singleton]
    | cons next lines =>
      rw [List.flatMap_cons, ih (List.cons_ne_nil _ _), List.intercalate_cons_cons,
        List.append_assoc, List.append_assoc, List.append_assoc]

/-- Header lines, an empty line and the data come apart at the empty line. -/
theorem Frame.split_of_headers (nonempty : lines ≠ []) (filled : ∀ line ∈ lines, line ≠ [])
    (plain : ∀ line ∈ lines, 10 ∉ line) (opening closing data : Bytes) :
    Frame.split ⟨opening, lines.flatMap (· ++ [10]) ++ [10] ++ data, closing⟩ =
      ([(10 : UInt8)].intercalate lines, data) := by
  have whole : lines.flatMap (· ++ [10]) ++ [10] ++ data =
      [(10 : UInt8)].intercalate lines ++ [10, 10] ++ data := by
    rw [flatMap_lines nonempty]
    simp only [List.append_assoc, List.cons_append, List.nil_append]
  have found : skipPast [10, 10] [10, 10] (lines.flatMap (· ++ [10]) ++ [10] ++ data) =
      some data := by
    rw [List.append_assoc, skipPast_lines_of_ne nonempty filled plain]
    exact skipPast_append _ [10] data
  rw [whole] at found
  rw [Frame.split, whole, readUntil_of_skipPast found]

/-- Data without a header has no empty line. -/
theorem Frame.split_of_data (filled : ∀ line ∈ lines, line ≠ [])
    (plain : ∀ line ∈ lines, 10 ∉ line) (unix : ∀ line ∈ lines, 13 ∉ line)
    (opening closing : Bytes) :
    Frame.split ⟨opening, lines.flatMap (· ++ [10]), closing⟩ =
      ([], lines.flatMap (· ++ [10])) := by
  have unbroken : skipPast [10, 10] [10, 10] (lines.flatMap (· ++ [10])) = none := by
    cases lines with
    | nil => rfl
    | cons line lines =>
      have through := skipPast_lines_of_ne (List.cons_ne_nil line lines) filled plain []
      rwa [List.append_nil] at through
  have unreturned : skipPast [13, 10, 13, 10] [13, 10, 13, 10] (lines.flatMap (· ++ [10])) =
      none := by
    apply Passes.skipPast_eq_none
    apply passes_of_not_mem
    intro inside
    obtain ⟨line, listed, inside⟩ := List.mem_flatMap.mp inside
    rcases List.mem_append.mp inside with inside | inside
    · exact unix line listed inside
    · exact absurd inside (by decide)
  rw [Frame.split, readUntil, unbroken, readUntil, unreturned]
  rfl

end Splitting

section Headers

/-- The characters of a header as it is written, without the line end. -/
def headerLine (header : String × String) : List Char :=
  header.1.toList ++ ':' :: ' ' :: header.2.toList

/-- A header that is read back from its line: nothing in it ends the name or the line early,
and nothing at its ends is trimmed. -/
structure IsPlainHeader (header : String × String) : Prop where
  name_ne : header.1 ≠ ""
  name_trim : Blank.trim header.1.toList = header.1.toList
  colon : ':' ∉ header.1.toList
  value_trim : Blank.trim header.2.toList = header.2.toList
  oneLine : '\n' ∉ headerLine header
  unended : Passes endMarker (Utf8.encode (headerLine header))

variable {header : String × String} {line : List Char}

theorem linesFrom_cons {c : Char} (other : c ≠ '\n') (reversed rest : List Char) :
    linesFrom reversed (c :: rest) = linesFrom (c :: reversed) rest := by
  -- The definition tells a line whose last character is a carriage return from others.
  by_cases returned : ∃ line, reversed = '\r' :: line
  · obtain ⟨line, rfl⟩ := returned
    rw [linesFrom, if_neg other]
  · rw [linesFrom, if_neg other]
    exact fun line same => returned ⟨line, same⟩

theorem linesFrom_append (line : List Char) (plain : '\n' ∉ line) (reversed rest : List Char) :
    linesFrom reversed (line ++ rest) = linesFrom (line.reverse ++ reversed) rest := by
  induction line generalizing reversed with
  | nil => rfl
  | cons c line ih =>
    obtain ⟨other, later⟩ := List.ne_and_not_mem_of_not_mem_cons plain
    rw [List.cons_append, linesFrom_cons other.symm, ih later, List.reverse_cons,
      List.append_assoc, List.singleton_append]

theorem linesFrom_newline (plain : '\n' ∉ line) (unix : line.getLast? ≠ some '\r')
    (rest : List Char) : linesFrom [] (line ++ '\n' :: rest) = line :: linesFrom [] rest := by
  rw [linesFrom_append line plain, List.append_nil, linesFrom, if_pos rfl, List.reverse_reverse]
  intro front reversed
  apply unix
  rw [← List.head?_reverse, reversed, List.head?_cons]

theorem lines_intercalate {parts : List (List Char)} (filled : ∀ line ∈ parts, line ≠ [])
    (plain : ∀ line ∈ parts, '\n' ∉ line) (unix : ∀ line ∈ parts, line.getLast? ≠ some '\r') :
    lines (['\n'].intercalate parts) = parts := by
  induction parts with
  | nil => rfl
  | cons line parts ih =>
    obtain ⟨here, later⟩ := List.forall_mem_cons.mp filled
    obtain ⟨plainHere, plainLater⟩ := List.forall_mem_cons.mp plain
    obtain ⟨unixHere, unixLater⟩ := List.forall_mem_cons.mp unix
    cases parts with
    | nil =>
      have last := linesFrom_append line plainHere [] []
      rw [List.append_nil, List.append_nil] at last
      rw [List.intercalate_singleton, lines, last, linesFrom,
        if_neg (by rw [List.reverse_eq_nil_iff]; exact here), List.reverse_reverse]
    | cons next parts =>
      have rest := ih later plainLater unixLater
      rw [lines] at rest
      rw [List.intercalate_cons_cons, lines, List.append_assoc, List.singleton_append,
        linesFrom_newline plainHere unixHere, rest]

theorem encode_intercalate (parts : List (List Char)) :
    Utf8.encode (['\n'].intercalate parts) = [(10 : UInt8)].intercalate (parts.map Utf8.encode) := by
  induction parts with
  | nil => rfl
  | cons line parts ih =>
    cases parts with
    | nil => rw [List.intercalate_singleton, List.map_singleton, List.intercalate_singleton]
    | cons next parts =>
      rw [List.intercalate_cons_cons, List.map_cons, List.map_cons, List.intercalate_cons_cons,
        ← List.map_cons, ← ih]
      simp only [Utf8.encode, List.flatMap_append]
      rfl

theorem dropWhile_colon {name : List Char} (plain : ':' ∉ name) (rest : List Char) :
    (name ++ ':' :: rest).dropWhile (· ≠ ':') = ':' :: rest ∧
      (name ++ ':' :: rest).takeWhile (· ≠ ':') = name := by
  have other : ∀ c ∈ name, decide (c ≠ ':') = true := fun c inside =>
    decide_eq_true fun same => plain (same ▸ inside)
  constructor
  · rw [List.dropWhile_append_of_pos other, List.dropWhile_cons_of_neg (by decide)]
  · rw [List.takeWhile_append_of_pos other, List.takeWhile_cons_of_neg (by decide),
      List.append_nil]

theorem IsPlainHeader.readHeader (plain : IsPlainHeader header) :
    readHeader (headerLine header) = .ok header := by
  obtain ⟨rest, name⟩ := dropWhile_colon plain.colon (' ' :: header.2.toList)
  have trimmed : Blank.trim (' ' :: header.2.toList) = header.2.toList := by
    rw [Blank.trim, Blank.trimStart, List.dropWhile_cons_of_pos rfl]
    exact plain.value_trim
  rw [headerLine, Pem.readHeader, rest, name]
  dsimp only
  rw [trimmed, plain.name_trim, String.ofList_toList, String.ofList_toList]

theorem mapM_readHeader {headers : List (String × String)}
    (plain : ∀ header ∈ headers, IsPlainHeader header) :
    (headers.map headerLine).mapM readHeader = .ok headers := by
  induction headers with
  | nil => rfl
  | cons header headers ih =>
    obtain ⟨here, later⟩ := List.forall_mem_cons.mp plain
    rw [List.map_cons, List.mapM_cons, here.readHeader, ih later]
    rfl

end Headers

section Data

variable {contents : Bytes} {line : Bytes}

theorem not_mem_encode_of_ne {b : UInt8} (symbols : ∀ n, Base64.symbol n ≠ b)
    (pads : Base64.padding ≠ b) (contents : Bytes) : b ∉ Base64.encode contents :=
  fun inside => Base64.of_mem_encode (· ≠ b) symbols pads b inside rfl

theorem isBlank_of_mem_encode {b : UInt8} (inside : b ∈ Base64.encode contents) :
    Blank.isBlank (Char.ofNat b.toNat) = false :=
  Base64.of_mem_encode (fun b => Blank.isBlank (Char.ofNat b.toNat) = false) (by decide +kernel)
    (by decide) b inside

theorem mem_encode_of_mem_chunks (listed : line ∈ (Base64.encode contents).chunks 64) {b : UInt8}
    (inside : b ∈ line) : b ∈ Base64.encode contents := by
  rw [← Bytes.flatten_chunks (by decide : 0 < 64) (Base64.encode contents)]
  exact List.mem_flatten_of_mem listed inside

theorem dataLines_lt : ∀ b ∈ dataLines contents, b < 0x80 := by
  intro b inside
  obtain ⟨line, listed, inside⟩ := List.mem_flatMap.mp inside
  rcases List.mem_append.mp inside with inside | inside
  · exact Base64.lt_of_mem_encode (mem_encode_of_mem_chunks listed inside)
  · rw [List.mem_singleton.mp inside]
    decide

theorem filter_flatMap_lines {keep : UInt8 → Bool} {lines : List Bytes}
    (kept : ∀ line ∈ lines, ∀ b ∈ line, keep b = true) (dropped : keep 10 = false) :
    (lines.flatMap (· ++ [10])).filter keep = lines.flatten := by
  induction lines with
  | nil => rfl
  | cons line lines ih =>
    obtain ⟨here, later⟩ := List.forall_mem_cons.mp kept
    rw [List.flatMap_cons, List.filter_append, List.filter_append, List.filter_eq_self.mpr here,
      List.filter_cons_of_neg (by rw [dropped]; exact Bool.false_ne_true), List.filter_nil,
      List.append_nil, ih later, List.flatten_cons]

/-- The lines of the data, read as text and without the line ends, are the base64. -/
theorem read_dataLines (contents : Bytes) :
    readText (dataLines contents) =
        .ok ((dataLines contents).map fun b => Char.ofNat b.toNat) ∧
      Utf8.encode (((dataLines contents).map fun b => Char.ofNat b.toNat).filter
        (! Blank.isBlank ·)) = Base64.encode contents := by
  constructor
  · have decoded := Utf8.decode_encode ((dataLines contents).map fun b => Char.ofNat b.toNat)
    rw [Utf8.encode_of_ascii dataLines_lt] at decoded
    rw [readText, decoded]
    rfl
  · rw [List.filter_map, dataLines, filter_flatMap_lines, Bytes.flatten_chunks (by decide),
      Utf8.encode_of_ascii fun b inside => Base64.lt_of_mem_encode inside]
    · intro line listed b inside
      rw [Function.comp_apply,
        isBlank_of_mem_encode (mem_encode_of_mem_chunks listed inside), Bool.not_false]
    · rfl

end Data

section RoundTrip

variable {pem : Pem} {header : String × String} {headers : List (String × String)}
  {contents : Bytes}

/-- A block that its written form gives back. -/
structure IsPlain (pem : Pem) : Prop where
  tag_ne : pem.tag ≠ ""
  tag_plain : '-' ∉ pem.tag.toList
  headers : ∀ header ∈ pem.headers, IsPlainHeader header

theorem headerLines_eq (nonempty : headers ≠ []) :
    headerLines headers =
      ((headers.map headerLine).map Utf8.encode).flatMap (· ++ [10]) ++ [10] := by
  rw [headerLines, if_neg nonempty, List.flatMap_map, List.flatMap_map]
  congr 2
  funext header
  simp only [headerLine, Bytes.ofString, Utf8.encode, List.flatMap_append, List.flatMap_cons,
    List.append_assoc]
  rfl

theorem headerLine_ne_nil (header : String × String) : headerLine header ≠ [] :=
  List.append_ne_nil_of_right_ne_nil _ (List.cons_ne_nil _ _)

theorem encode_ne_nil {chars : List Char} (filled : chars ≠ []) : Utf8.encode chars ≠ [] := by
  intro empty
  have decoded := Utf8.decode_encode chars
  rw [empty] at decoded
  exact filled (Except.ok.inj decoded).symm

theorem IsPlainHeader.getLast?_ne (plain : IsPlainHeader header) :
    (headerLine header).getLast? ≠ some '\r' := by
  intro last
  have parts : headerLine header = header.1.toList ++ [':', ' '] ++ header.2.toList := by
    rw [headerLine, List.append_assoc]
    rfl
  rw [parts, List.getLast?_append, List.getLast?_append] at last
  cases ends : header.2.toList.getLast? with
  | none =>
    rw [ends] at last
    cases last
  | some c =>
    rw [ends, Option.some_or] at last
    rw [last] at ends
    exact absurd (Blank.isBlank_of_getLast? plain.value_trim ends) (by decide)

theorem passes_headerLines (plain : ∀ header ∈ headers, IsPlainHeader header) :
    Passes endMarker (headerLines headers) := by
  by_cases nonempty : headers = []
  · rw [headerLines, if_pos nonempty]
    exact .nil endMarker
  · rw [headerLines_eq nonempty]
    apply Passes.append
    · apply Passes.flatMap
      refine List.forall_mem_map.mpr (List.forall_mem_map.mpr fun header listed => ?_)
      exact (plain header listed).unended.append (passes_of_not_mem _ (by decide))
    · exact passes_of_not_mem _ (by decide)

theorem passes_dataLines (contents : Bytes) : Passes endMarker (dataLines contents) := by
  apply passes_of_not_mem
  intro inside
  obtain ⟨line, listed, inside⟩ := List.mem_flatMap.mp inside
  rcases List.mem_append.mp inside with inside | inside
  · exact not_mem_encode_of_ne (by decide +kernel) (by decide) contents
      (mem_encode_of_mem_chunks listed inside)
  · exact absurd inside (by decide)

theorem isBlank_of_isFrameBlank {b : UInt8} (blank : isFrameBlank b = true) :
    b < 0x80 ∧ Blank.isBlank (Char.ofNat b.toNat) = true := by
  revert b
  decide +kernel

/-- The first byte of a text that begins with no blank is none either. -/
theorem isFrameBlank_of_encode {chars : List Char} {b : UInt8}
    (visible : ∀ c ∈ chars.head?, Blank.isBlank c = false)
    (first : (Utf8.encode chars).head? = some b) : isFrameBlank b = false := by
  by_contra blank
  rw [Bool.not_eq_false] at blank
  obtain ⟨ascii, blank⟩ := isBlank_of_isFrameBlank blank
  cases chars with
  | nil => cases first
  | cons c rest =>
    have parts : Utf8.encode (c :: rest) = Utf8.encode [c] ++ Utf8.encode rest := by
      simp only [Utf8.encode, List.flatMap_cons, List.flatMap_nil, List.append_nil]
    rw [parts, List.head?_append_of_ne_nil _ (encode_ne_nil (List.cons_ne_nil c []))] at first
    have same := Utf8.mem_of_mem_encode (List.mem_of_mem_head? first) ascii
    rw [List.mem_singleton.mp same, visible c rfl] at blank
    cases blank

theorem begins_dataLines {b : UInt8} (first : (dataLines contents).head? = some b) :
    isFrameBlank b = false := by
  by_contra blank
  rw [Bool.not_eq_false] at blank
  have filled := fun line => @Bytes.ne_nil_of_mem_chunks 64 (Base64.encode contents) line (by decide)
  have inside := fun line => @mem_encode_of_mem_chunks contents line
  rw [dataLines] at first
  cases lines : (Base64.encode contents).chunks 64 with
  | nil =>
    rw [lines] at first
    cases first
  | cons line rest =>
    have listed : line ∈ (Base64.encode contents).chunks 64 := lines ▸ List.mem_cons_self
    rw [lines, List.flatMap_cons, List.append_assoc,
      List.head?_append_of_ne_nil _ (filled line listed)] at first
    have visible := isBlank_of_mem_encode (inside line listed (List.mem_of_mem_head? first))
    rw [(isBlank_of_isFrameBlank blank).2] at visible
    cases visible

theorem begins_payload (plain : ∀ header ∈ headers, IsPlainHeader header) (contents : Bytes) :
    ∀ b ∈ (headerLines headers ++ dataLines contents).head?, isFrameBlank b = false := by
  intro b first
  cases headers with
  | nil => exact begins_dataLines first
  | cons header headers =>
    have here := plain header List.mem_cons_self
    have named : header.1.toList ≠ [] := fun empty =>
      here.name_ne (String.toList_eq_nil_iff.mp empty)
    rw [headerLines_eq (List.cons_ne_nil _ _), List.map_cons, List.map_cons, List.flatMap_cons,
      List.append_assoc, List.append_assoc, List.append_assoc,
      List.head?_append_of_ne_nil _ (encode_ne_nil (headerLine_ne_nil header))] at first
    apply isFrameBlank_of_encode _ first
    intro c start
    rw [headerLine, List.head?_append_of_ne_nil _ named] at start
    exact Blank.isBlank_of_head? here.name_trim start

theorem split_payload (plain : ∀ header ∈ headers, IsPlainHeader header)
    (opening contents closing : Bytes) :
    Frame.split ⟨opening, headerLines headers ++ dataLines contents, closing⟩ =
      (Utf8.encode (['\n'].intercalate (headers.map headerLine)), dataLines contents) := by
  by_cases nonempty : headers = []
  · have filled : ∀ line ∈ (Base64.encode contents).chunks 64, line ≠ [] := fun _ listed =>
      Bytes.ne_nil_of_mem_chunks (by decide) listed
    have free {b : UInt8} (symbols : ∀ n, Base64.symbol n ≠ b) (pads : Base64.padding ≠ b) :
        ∀ line ∈ (Base64.encode contents).chunks 64, b ∉ line := fun line listed inside =>
      not_mem_encode_of_ne symbols pads contents (mem_encode_of_mem_chunks listed inside)
    rw [headerLines, if_pos nonempty, List.nil_append, dataLines,
      Frame.split_of_data filled (free (by decide +kernel) (by decide))
        (free (by decide +kernel) (by decide)), nonempty]
    rfl
  · have lines_ne : (headers.map headerLine).map Utf8.encode ≠ [] := by
      simpa only [ne_eq, List.map_eq_nil_iff] using nonempty
    rw [headerLines_eq nonempty, encode_intercalate, Frame.split_of_headers lines_ne]
    · exact List.forall_mem_map.mpr (List.forall_mem_map.mpr fun header _ =>
        encode_ne_nil (headerLine_ne_nil header))
    · exact List.forall_mem_map.mpr (List.forall_mem_map.mpr fun header listed inside =>
        (plain header listed).oneLine (Utf8.mem_of_mem_encode inside (by decide)))

/-- A block as it is written, without the line end after it. -/
def block (pem : Pem) : Bytes :=
  beginMarker ++ (Bytes.ofString pem.tag ++ dashes ++ 10 ::
    (headerLines pem.headers ++ dataLines pem.contents ++ endMarker ++
      (Bytes.ofString pem.tag ++ dashes)))

theorem render_eq (pem : Pem) : render pem = block pem ++ [10] := by
  simp only [render, block, List.append_assoc, List.cons_append, List.nil_append]

/-- A plain block is read whatever comes before and after it. -/
theorem parse_block {before : Bytes} (plain : IsPlain pem) (ahead : Passes beginMarker before)
    (rest : Bytes) : parse (before ++ block pem ++ rest) = .ok pem := by
  have framed := Frame.find?_block ahead
    (fun inside => plain.tag_plain (Utf8.mem_of_mem_encode inside (by decide)))
    ((passes_headerLines plain.headers).append (passes_dataLines pem.contents))
    (begins_payload plain.headers pem.contents) rest
  have written : before ++ block pem ++ rest =
      before ++ beginMarker ++ (Utf8.encode pem.tag.toList ++ dashes ++ 10 ::
        (headerLines pem.headers ++ dataLines pem.contents ++ endMarker ++
          (Utf8.encode pem.tag.toList ++ dashes ++ rest))) := by
    simp only [block, Bytes.ofString, List.append_assoc, List.cons_append]
  have tagRead : readText (Utf8.encode pem.tag.toList) = .ok pem.tag.toList := by
    rw [readText, Utf8.decode_encode]
    rfl
  have headersRead : readText (Utf8.encode (['\n'].intercalate (pem.headers.map headerLine))) =
      .ok (['\n'].intercalate (pem.headers.map headerLine)) := by
    rw [readText, Utf8.decode_encode]
    rfl
  have linesRead : lines (['\n'].intercalate (pem.headers.map headerLine)) =
      pem.headers.map headerLine := by
    apply lines_intercalate
    · exact List.forall_mem_map.mpr fun header _ => headerLine_ne_nil header
    · exact List.forall_mem_map.mpr fun header listed => (plain.headers header listed).oneLine
    · exact List.forall_mem_map.mpr fun header listed => (plain.headers header listed).getLast?_ne
  have named : pem.tag.toList ≠ [] := by
    intro empty
    exact plain.tag_ne (String.toList_eq_nil_iff.mp empty)
  obtain ⟨dataRead, filtered⟩ := read_dataLines pem.contents
  rw [parse, written, framed]
  simp only [Frame.decode, split_payload plain.headers, tagRead, named, ne_eq, not_true_eq_false,
    ↓reduceIte, dataRead, filtered, Base64.decode_encode, headersRead, linesRead,
    mapM_readHeader plain.headers, String.ofList_toList, Except.mapError, bind, Except.bind, pure,
    Except.pure]

/-- Every plain block is what its written form is read as. -/
theorem parse_render (plain : IsPlain pem) : parse (render pem) = .ok pem := by
  have read := parse_block plain (.nil beginMarker) [10]
  rwa [List.nil_append, ← render_eq] at read

end RoundTrip

end RequestSigning.Pem
