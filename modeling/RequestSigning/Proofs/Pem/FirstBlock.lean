import RequestSigning.Proofs.Pem
set_option autoImplicit false

namespace RequestSigning.Pem

variable {marker owed before input rest text : Bytes} {frame : Frame}

section Searching

/-- A marker that is found is found in the same place whatever follows. -/
theorem skipPast_append_of_some (found : skipPast marker owed input = some rest) (after : Bytes) :
    skipPast marker owed (input ++ after) = some (rest ++ after) := by
  induction input generalizing owed with
  | nil =>
    cases owed with
    | nil =>
      cases found
      cases after <;> rfl
    | cons m owed => cases found
  | cons b input ih =>
    cases owed with
    | nil =>
      cases found
      rfl
    | cons m owed =>
      rw [skipPast] at found
      rw [List.cons_append, skipPast]
      exact ih found

theorem readUntil_append_of_some (found : readUntil marker input = some (text, rest))
    (after : Bytes) : readUntil marker (input ++ after) = some (text, rest ++ after) := by
  rw [readUntil, Option.map_eq_some_iff] at found
  obtain ⟨left, skipped, parts⟩ := found
  obtain ⟨rfl, rfl⟩ := Prod.mk.inj parts
  have place : (input ++ after).length - ((left ++ after).length + marker.length) =
      input.length - (left.length + marker.length) := by
    rw [List.length_append, List.length_append]
    omega
  rw [readUntil, skipPast_append_of_some skipped, Option.map_some, place,
    List.take_append_of_le_length (Nat.sub_le _ _)]

/-- What the search goes past does not hide the marker after it. -/
theorem Passes.readUntil_append_of_some (passes : Passes marker before)
    (found : Pem.readUntil marker input = some (text, rest)) :
    ∃ front, Pem.readUntil marker (before ++ input) = some (front, rest) := by
  rw [Pem.readUntil, Option.map_eq_some_iff] at found
  obtain ⟨left, skipped, parts⟩ := found
  obtain ⟨rfl, rfl⟩ := Prod.mk.inj parts
  rw [Pem.readUntil, passes, skipped]
  exact ⟨_, rfl⟩

theorem ne_nil_of_readUntil {m : UInt8} (found : readUntil (m :: owed) input = some (text, rest)) :
    input ≠ [] := by
  rintro rfl
  cases found

theorem mem_of_readUntil {m : UInt8} (found : readUntil (m :: owed) input = some (text, rest)) :
    m ∈ input := by
  by_contra missing
  rw [readUntil, (passes_of_not_mem owed missing).skipPast_eq_none] at found
  cases found

end Searching

section Frames

theorem Frame.find?_eq_some_iff : Frame.find? input = some frame ↔
    ∃ front second third fourth last,
      readUntil beginMarker input = some (front, second) ∧
      readUntil dashes second = some (frame.opening, third) ∧
      readUntil endMarker (third.dropWhile isFrameBlank) = some (frame.payload, fourth) ∧
      readUntil dashes fourth = some (frame.closing, last) := by
  obtain ⟨opening, payload, closing⟩ := frame
  simp only [Frame.find?, Option.bind_eq_bind, Option.bind_eq_some_iff, Prod.exists,
    Option.pure_def, Option.some.injEq, Frame.mk.injEq]
  constructor
  · rintro ⟨front, second, begun, _, third, opened, _, fourth, ended, _, last, closed, rfl, rfl, rfl⟩
    exact ⟨front, second, third, fourth, last, begun, opened, ended, closed⟩
  · rintro ⟨front, second, third, fourth, last, begun, opened, ended, closed⟩
    exact ⟨front, second, begun, _, third, opened, _, fourth, ended, _, last, closed, rfl, rfl, rfl⟩

/-- A block that is complete is the first one, whatever follows it and whatever comes before it
that the search for its beginning goes past. -/
theorem Frame.find?_append (found : Frame.find? input = some frame)
    (ahead : Passes beginMarker before) (after : Bytes) :
    Frame.find? (before ++ input ++ after) = some frame := by
  obtain ⟨front, second, third, fourth, last, begun, opened, ended, closed⟩ :=
    Frame.find?_eq_some_iff.mp found
  obtain ⟨skipped, begun⟩ := ahead.readUntil_append_of_some begun
  have blank : (third ++ after).dropWhile isFrameBlank =
      third.dropWhile isFrameBlank ++ after := by
    have more : ¬ (third.dropWhile isFrameBlank).isEmpty = true := by
      rw [List.isEmpty_iff]
      exact ne_nil_of_readUntil ended
    rw [List.dropWhile_append, if_neg more]
  refine Frame.find?_eq_some_iff.mpr ⟨skipped, second ++ after, third ++ after, fourth ++ after,
    last ++ after, readUntil_append_of_some begun after, readUntil_append_of_some opened after, ?_,
    readUntil_append_of_some closed after⟩
  rw [blank]
  exact readUntil_append_of_some ended after

theorem Frame.mem_of_find? (found : Frame.find? input = some frame) : 45 ∈ input := by
  obtain ⟨_, _, _, _, _, begun, -⟩ := Frame.find?_eq_some_iff.mp found
  exact mem_of_readUntil begun

/-- Nothing outside the first block is looked at. -/
theorem parse_append (complete : (Frame.find? input).isSome) (ahead : Passes beginMarker before)
    (after : Bytes) : parse (before ++ input ++ after) = parse input := by
  obtain ⟨frame, found⟩ := Option.isSome_iff_exists.mp complete
  rw [parse, parse, found, Frame.find?_append found ahead after]

theorem isSome_find?_of_parse {pem : Pem} (parsed : parse input = .ok pem) :
    (Frame.find? input).isSome := by
  rw [parse] at parsed
  split at parsed
  · cases parsed
  · rename_i frame found
    exact Option.isSome_of_mem found

end Frames

end RequestSigning.Pem
