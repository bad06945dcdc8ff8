import RequestSigning.Der.Oid
import RequestSigning.Proofs.Der.Reader
set_option autoImplicit false

namespace RequestSigning.Der

namespace Tag

/-- A tag of the context-specific field of a number. -/
structure IsOfField (number tag : UInt8) : Prop where
  known : isKnown tag = true
  context : isContextSpecific tag = true
  same : Tag.number tag = number

theorem isOfField_explicit {number : UInt8} (short : number < 0x1F) :
    IsOfField number (explicit number) := by
  have tag : ∀ number : UInt8, number < 0x1F → isKnown (explicit number) = true ∧
      isContextSpecific (explicit number) = true ∧ Tag.number (explicit number) = number := by
    decide +kernel
  obtain ⟨known, context, same⟩ := tag number short
  exact ⟨known, context, same⟩

theorem isOfField_implicit {number : UInt8} (short : number < 0x1F) :
    IsOfField number (implicit number) := by
  have tag : ∀ number : UInt8, number < 0x1F → isKnown (implicit number) = true ∧
      isContextSpecific (implicit number) = true ∧ Tag.number (implicit number) = number := by
    decide +kernel
  obtain ⟨known, context, same⟩ := tag number short
  exact ⟨known, context, same⟩

end Tag

variable {contents : Bytes} {n : Nat}

section Integers

theorem ofNat_width_toNat_cons {b : UInt8} (nonzero : b ≠ 0) (bytes : Bytes) :
    Bytes.ofNat (Bytes.width (Bytes.toNat (b :: bytes))) (Bytes.toNat (b :: bytes)) = b :: bytes := by
  rw [Bytes.width_toNat_cons nonzero]
  exact Bytes.ofNat_toNat (b :: bytes)

/-- Each natural number is read from one content. -/
theorem eq_unsignedContent_of_unsigned? (read : unsigned? contents = some n) :
    contents = unsignedContent n := by
  unfold unsigned? at read
  split at read
  · cases read
  · rename_i b tail
    split at read
    · rename_i proper
      obtain ⟨shortest, positive⟩ := proper
      cases read
      by_cases zero : b = 0
      · subst zero
        cases tail with
        | nil => rfl
        | cons c tail =>
          -- A leading zero stands only before a digit whose first bit is set.
          have high : ¬ c < 0x80 := by
            intro low
            rw [isShortestInteger, decide_eq_true low] at shortest
            cases shortest
          have nonzero : c ≠ 0 := by
            rintro rfl
            exact high (by decide)
          rw [unsignedContent, Bytes.toNat_zero_cons, ofNat_width_toNat_cons nonzero]
          dsimp only
          rw [if_neg high]
      · rw [unsignedContent, ofNat_width_toNat_cons zero]
        dsimp only
        rw [if_pos positive]
    · cases read

/-- The first digit of a number is not zero. -/
theorem ne_zero_of_ofNat_width {b : UInt8} {bytes : Bytes}
    (digits : Bytes.ofNat (Bytes.width n) n = b :: bytes) : b ≠ 0 := by
  rintro rfl
  have length := congrArg List.length digits
  rw [Bytes.length_ofNat, List.length_cons] at length
  have value := Bytes.toNat_ofNat _ _ (Bytes.lt_pow_width n)
  rw [digits, Bytes.toNat_zero_cons] at value
  have narrow : Bytes.width n ≤ bytes.length := by
    rw [Bytes.width_le_iff, ← value]
    exact Bytes.toNat_lt bytes
  omega

theorem unsigned?_unsignedContent (n : Nat) : unsigned? (unsignedContent n) = some n := by
  have value := Bytes.toNat_ofNat _ _ (Bytes.lt_pow_width n)
  rw [unsignedContent]
  cases digits : Bytes.ofNat (Bytes.width n) n with
  | nil =>
    rw [digits] at value
    subst value
    rfl
  | cons b bytes =>
    have nonzero := ne_zero_of_ofNat_width digits
    rw [digits] at value
    dsimp only
    split
    · rename_i positive
      have below : b.toNat < 0x80 := UInt8.lt_iff_toNat_lt.mp positive
      have shortest : isShortestInteger (b :: bytes) = true := by
        have notNegative : b ≠ 0xFF := by
          rintro rfl
          exact absurd below (by decide)
        cases bytes with
        | nil => rfl
        | cons c bytes => simp [isShortestInteger, nonzero, notNegative]
      rw [unsigned?, if_pos ⟨shortest, positive⟩, value]
    · rename_i negative
      have shortest : isShortestInteger (0 :: b :: bytes) = true := by
        simp [isShortestInteger, negative]
      rw [unsigned?, if_pos ⟨shortest, by decide⟩, Bytes.toNat_zero_cons, value]

theorem reads_unsigned (size : Nat) :
    (Reader.unsigned size).Reads
      (fun n => Bytes.width n ≤ size ∧ Element.IsReadable ⟨Tag.integer, unsignedContent n⟩)
      encodeUnsigned id := by
  rw [Reader.reads_id_iff]
  intro bytes n rest
  rw [Reader.unsigned, Reader.run_bind_eq_some_iff]
  constructor
  · rintro ⟨content, middle, taken, inner⟩
    obtain ⟨readable, rfl⟩ := Reader.run_content_eq_some_iff.mp taken
    obtain ⟨value, middle, read, kept⟩ := Reader.run_bind_eq_some_iff.mp inner
    obtain ⟨number, rfl⟩ := Reader.run_liftM_eq_some_iff.mp read
    obtain rfl := eq_unsignedContent_of_unsigned? number
    split at kept
    · rename_i narrow
      obtain ⟨rfl, rfl⟩ := Reader.run_pure_eq_some_iff.mp kept
      exact ⟨⟨narrow, readable⟩, rfl⟩
    · exact (Reader.run_failure_eq_some_iff.mp kept).elim
  · rintro ⟨⟨narrow, readable⟩, rfl⟩
    refine ⟨_, rest, Reader.run_content_eq_some_iff.mpr ⟨readable, rfl⟩, ?_⟩
    rw [Reader.run_bind_eq_some_iff]
    refine ⟨n, rest, Reader.run_liftM_eq_some_iff.mpr ⟨unsigned?_unsignedContent n, rfl⟩, ?_⟩
    rw [if_pos narrow]
    exact Reader.run_pure_eq_some_iff.mpr ⟨rfl, rfl⟩

end Integers

section Booleans

/-- The one byte of a BOOLEAN. -/
def booleanContent (value : Bool) : Bytes :=
  [if value then 0xFF else 0x00]

theorem reads_boolean :
    Reader.boolean.Reads (fun _ => True)
      (fun value => Element.encode ⟨Tag.boolean, booleanContent value⟩) id := by
  rw [Reader.reads_id_iff]
  intro bytes value rest
  rw [Reader.boolean, Reader.run_bind_eq_some_iff]
  constructor
  · rintro ⟨content, middle, taken, inner⟩
    obtain ⟨-, rfl⟩ := Reader.run_content_eq_some_iff.mp taken
    split at inner
    · obtain ⟨rfl, rfl⟩ := Reader.run_pure_eq_some_iff.mp inner
      exact ⟨trivial, rfl⟩
    · obtain ⟨rfl, rfl⟩ := Reader.run_pure_eq_some_iff.mp inner
      exact ⟨trivial, rfl⟩
    · exact (Reader.run_failure_eq_some_iff.mp inner).elim
  · rintro ⟨-, rfl⟩
    have readable : Element.IsReadable ⟨Tag.boolean, booleanContent value⟩ :=
      ⟨(by decide : Tag.isKnown Tag.boolean = true), (by decide : 1 ≤ maxLength)⟩
    refine ⟨_, rest, Reader.run_content_eq_some_iff.mpr ⟨readable, rfl⟩, ?_⟩
    cases value <;> rfl

end Booleans

section BitStrings

/-- The unused bits are bits of a last byte. -/
@[mk_iff] structure BitString.IsReadable (bits : BitString) : Prop where
  unused_le : bits.unused ≤ 7
  last : bits.unused = 0 ∨ bits.bytes ≠ []

instance (bits : BitString) : Decidable bits.IsReadable :=
  decidable_of_iff' _ (BitString.isReadable_iff bits)

theorem BitString.ofContent?_eq_some_iff {bits : BitString} :
    BitString.ofContent? contents = some bits ↔ bits.IsReadable ∧ contents = bits.content := by
  constructor
  · intro read
    unfold ofContent? at read
    split at read
    · cases read
    · split at read
      · rename_i proper
        cases read
        exact ⟨⟨proper.1, proper.2⟩, rfl⟩
      · cases read
  · rintro ⟨readable, rfl⟩
    exact if_pos ⟨readable.unused_le, readable.last⟩

theorem BitString.reads (tag : UInt8) :
    (Reader.content tag >>= fun content => (liftM (BitString.ofContent? content) : Reader _)).Reads
      (fun bits => bits.IsReadable ∧ Element.IsReadable ⟨tag, bits.content⟩) (encodeBitString tag)
      id := by
  rw [Reader.reads_id_iff]
  intro bytes bits rest
  rw [Reader.run_bind_eq_some_iff]
  constructor
  · rintro ⟨content, middle, taken, inner⟩
    obtain ⟨readable, rfl⟩ := Reader.run_content_eq_some_iff.mp taken
    obtain ⟨read, rfl⟩ := Reader.run_liftM_eq_some_iff.mp inner
    obtain ⟨proper, rfl⟩ := BitString.ofContent?_eq_some_iff.mp read
    exact ⟨⟨proper, readable⟩, rfl⟩
  · rintro ⟨⟨proper, readable⟩, rfl⟩
    exact ⟨bits.content, rest, Reader.run_content_eq_some_iff.mpr ⟨readable, rfl⟩,
      Reader.run_liftM_eq_some_iff.mpr ⟨BitString.ofContent?_eq_some_iff.mpr ⟨proper, rfl⟩, rfl⟩⟩

end BitStrings

section Fields

variable {α γ : Type} {reader : Reader α} {IsReadable : γ → Prop} {encode : γ → Bytes}
  {ofLayout : γ → α} {bytes rest : Bytes} {number : UInt8}

theorem Tag.IsOfField.comesNext {tag : UInt8} (field : Tag.IsOfField number tag)
    (content rest : Bytes) : Reader.ComesNext number true (Element.encode ⟨tag, content⟩ ++ rest) :=
  (Reader.comesNext_encode_append _ rest).mpr ⟨field.known, field.context, field.same⟩

/-- A field of a higher number ends the search. -/
theorem Tag.IsOfField.comesNext_false {higher tag : UInt8} (field : Tag.IsOfField higher tag)
    (lower : number < higher) (content rest : Bytes) :
    Reader.ComesNext number false (Element.encode ⟨tag, content⟩ ++ rest) :=
  (Reader.comesNext_encode_append _ rest).mpr ⟨field.known, .inr (field.same.symm ▸ lower)⟩

/-- An optional field is written under its tag or left out, after those that are passed over. -/
theorem Reader.run_explicit_eq_some_iff (reads : reader.Reads IsReadable encode ofLayout)
    (short : number < 0x1F) {result : Option α} :
    (Reader.explicit number reader).run bytes = some (result, rest) ↔
      ∃ (passed : List Element) (field : Option γ),
        (∀ element ∈ passed, IsPassed number element) ∧
        (∀ layout ∈ field, IsReadable layout ∧
          Element.IsReadable ⟨Tag.explicit number, encode layout⟩) ∧
        (field = none → ComesNext number false rest) ∧ field.map ofLayout = result ∧
        bytes = passed.flatMap Element.encode ++
          ((field.map fun layout => Element.encode ⟨Tag.explicit number, encode layout⟩).getD [] ++
            rest) :=
  run_field_eq_some_iff
    (reads_nested (fun _ _ => reads.whole_eq_some_iff) (Tag.explicit number))
    (fun _ _ rest => (Tag.isOfField_explicit short).comesNext _ rest)

theorem Reader.run_implicitBitString_eq_some_iff (short : number < 0x1F)
    {result : Option BitString} :
    (Reader.implicitBitString number).run bytes = some (result, rest) ↔
      ∃ passed : List Element,
        (∀ element ∈ passed, IsPassed number element) ∧
        (∀ bits ∈ result, bits.IsReadable ∧
          Element.IsReadable ⟨Tag.implicit number, bits.content⟩) ∧
        (result = none → ComesNext number false rest) ∧
        bytes = passed.flatMap Element.encode ++
          ((result.map (encodeBitString (Tag.implicit number))).getD [] ++ rest) := by
  have begins : ∀ bits : BitString,
      bits.IsReadable ∧ Element.IsReadable ⟨Tag.implicit number, bits.content⟩ →
      ∀ rest, ComesNext number true (encodeBitString (Tag.implicit number) bits ++ rest) :=
    fun bits _ => (Tag.isOfField_implicit short).comesNext bits.content
  have form : Reader.implicitBitString number = do
      if ← contextField number then
        some <$> (content (Tag.implicit number) >>= fun content => liftM (BitString.ofContent? content))
      else return none := by
    simp only [Reader.implicitBitString, map_bind]
  rw [form, run_field_eq_some_iff (BitString.reads (Tag.implicit number)) begins]
  simp only [Option.map_id, id, existsAndEq, true_and]

end Fields

section Algorithms

/-- An identifier that is read back from its bytes. -/
def Oid.IsReadable (oid : Oid) : Prop :=
  Oid.ofContent? oid.bytes = some oid

instance (oid : Oid) : Decidable oid.IsReadable :=
  inferInstanceAs (Decidable (_ = _))

theorem Oid.ofContent?_eq_some_iff {oid : Oid} :
    Oid.ofContent? contents = some oid ↔ oid.IsReadable ∧ contents = oid.bytes := by
  constructor
  · intro read
    have kept : contents = oid.bytes := by
      rw [ofContent?] at read
      split at read
      · cases read
        rfl
      · cases read
    subst kept
    exact ⟨read, rfl⟩
  · rintro ⟨readable, rfl⟩
    exact readable

theorem Oid.IsReadable.element {oid : Oid} (readable : oid.IsReadable) :
    Element.IsReadable ⟨Tag.objectIdentifier, oid.bytes⟩ := by
  refine ⟨(by decide : Tag.isKnown Tag.objectIdentifier = true), ?_⟩
  have read := readable
  rw [IsReadable, ofContent?] at read
  split at read
  · rename_i proper
    exact Nat.le_trans proper.2.1 (by decide)
  · cases read

theorem Oid.reads : Oid.read.Reads Oid.IsReadable Oid.encode id := by
  rw [Reader.reads_id_iff]
  intro bytes oid rest
  rw [Oid.read, Reader.run_bind_eq_some_iff]
  constructor
  · rintro ⟨content, middle, taken, inner⟩
    obtain ⟨-, rfl⟩ := Reader.run_content_eq_some_iff.mp taken
    obtain ⟨read, rfl⟩ := Reader.run_liftM_eq_some_iff.mp inner
    obtain ⟨readable, rfl⟩ := Oid.ofContent?_eq_some_iff.mp read
    exact ⟨readable, rfl⟩
  · rintro ⟨readable, rfl⟩
    exact ⟨oid.bytes, rest, Reader.run_content_eq_some_iff.mpr ⟨readable.element, rfl⟩,
      Reader.run_liftM_eq_some_iff.mpr ⟨readable, rfl⟩⟩

namespace Algorithm

/-- What stands inside the SEQUENCE of an algorithm. -/
def content (algorithm : Algorithm) : Bytes :=
  algorithm.oid.encode ++ (algorithm.parameters.map Element.encode).getD []

theorem encode_eq (algorithm : Algorithm) :
    algorithm.encode = Element.encode ⟨Tag.sequence, algorithm.content⟩ := by
  simp only [encode, encodeSequence, content, List.flatten_cons, List.flatten_nil, List.append_nil]

@[mk_iff] structure IsReadable (algorithm : Algorithm) : Prop where
  oid : algorithm.oid.IsReadable
  parameters : ∀ element ∈ algorithm.parameters, element.IsReadable
  sequence : Element.IsReadable ⟨Tag.sequence, algorithm.content⟩

instance (algorithm : Algorithm) : Decidable algorithm.IsReadable :=
  decidable_of_iff' _ (isReadable_iff algorithm)

theorem reads : Algorithm.read.Reads Algorithm.IsReadable Algorithm.encode id := by
  rw [Reader.reads_id_iff]
  intro bytes algorithm rest
  rw [Algorithm.read, Reader.run_nested_eq_some_iff, encode_eq]
  constructor
  · rintro ⟨content, readable, inner, rfl⟩
    rw [Reader.whole_eq_some_iff, Reader.run_bind_eq_some_iff] at inner
    obtain ⟨oid, afterOid, taken, inner⟩ := inner
    obtain ⟨oidReadable, rfl⟩ := Reader.reads_id_iff.mp Oid.reads _ _ _ |>.mp taken
    obtain ⟨ended, here, asked, inner⟩ := Reader.run_bind_eq_some_iff.mp inner
    obtain ⟨rfl, rfl⟩ := Reader.run_atEnd_eq_some_iff.mp asked
    split at inner
    · obtain ⟨rfl, rfl⟩ := Reader.run_pure_eq_some_iff.mp inner
      exact ⟨⟨oidReadable, nofun, readable⟩, rfl⟩
    · obtain ⟨element, last, found, inner⟩ := Reader.run_bind_eq_some_iff.mp inner
      obtain ⟨rfl, rfl⟩ := Reader.run_pure_eq_some_iff.mp inner
      obtain ⟨elementReadable, rfl⟩ := Reader.run_any_eq_some_iff.mp found
      rw [List.append_nil] at readable ⊢
      refine ⟨⟨oidReadable, ?_, readable⟩, rfl⟩
      rintro _ ⟨⟩
      exact elementReadable
  · rintro ⟨readable, rfl⟩
    refine ⟨algorithm.content, readable.sequence, ?_, rfl⟩
    obtain ⟨oid, parameters⟩ := algorithm
    rw [Reader.whole_eq_some_iff, Reader.run_bind_eq_some_iff]
    refine ⟨oid, _, Oid.reads.run readable.oid _, ?_⟩
    rw [Reader.run_bind_eq_some_iff]
    refine ⟨_, _, Reader.run_atEnd_eq_some_iff.mpr ⟨rfl, rfl⟩, ?_⟩
    cases parameters with
    | none => rfl
    | some element =>
      have more : ¬ (element.encode).isEmpty = true := by
        rw [List.isEmpty_iff]
        exact element.encode_ne_nil
      dsimp only [Option.map_some, Option.getD_some]
      rw [if_neg more, Reader.run_bind_eq_some_iff]
      have taken := Reader.reads_any.run (readable.parameters element rfl) []
      rw [List.append_nil] at taken
      exact ⟨element, [], taken, rfl⟩

end Algorithm

end Algorithms

end RequestSigning.Der
