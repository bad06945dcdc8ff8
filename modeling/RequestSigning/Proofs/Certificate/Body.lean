import RequestSigning.Certificate.Body
import RequestSigning.Proofs.Certificate.Extension
import RequestSigning.Proofs.Certificate.Name
import RequestSigning.Proofs.Der.Time
set_option autoImplicit false

namespace RequestSigning.Certificate

open Der

section Parts

theorem Version.reads :
    Version.read.Reads (fun _ => True) (fun version => encodeUnsigned version.number) id := by
  rw [Reader.reads_id_iff]
  intro bytes version rest
  rw [Version.read, Reader.run_bind_eq_some_iff]
  constructor
  · rintro ⟨n, middle, taken, inner⟩
    obtain ⟨-, rfl⟩ := Reader.reads_id_iff.mp (reads_unsigned 1) _ _ _ |>.mp taken
    split at inner
    · obtain ⟨rfl, rfl⟩ := Reader.run_pure_eq_some_iff.mp inner
      exact ⟨trivial, rfl⟩
    · obtain ⟨rfl, rfl⟩ := Reader.run_pure_eq_some_iff.mp inner
      exact ⟨trivial, rfl⟩
    · obtain ⟨rfl, rfl⟩ := Reader.run_pure_eq_some_iff.mp inner
      exact ⟨trivial, rfl⟩
    · exact (Reader.run_failure_eq_some_iff.mp inner).elim
  · rintro ⟨-, rfl⟩
    have taken : Bytes.width version.number ≤ 1 ∧
        Element.IsReadable ⟨Tag.integer, unsignedContent version.number⟩ := by
      cases version <;> exact ⟨by decide, by decide, by decide⟩
    refine ⟨version.number, rest, (reads_unsigned 1).run taken rest, ?_⟩
    cases version <;> rfl

/-- What is read of a serial number. -/
@[mk_iff] structure IsSerial (serial : Bytes) : Prop where
  shortest : isShortestInteger serial = true
  short : serial.length ≤ maxSerialLength

instance (serial : Bytes) : Decidable (IsSerial serial) :=
  decidable_of_iff' _ (isSerial_iff serial)

theorem IsSerial.element {serial : Bytes} (readable : IsSerial serial) :
    Element.IsReadable ⟨Tag.integer, serial⟩ :=
  ⟨(by decide : Tag.isKnown Tag.integer = true), Nat.le_trans readable.short (by decide)⟩

theorem reads_serial :
    readSerial.Reads IsSerial (fun serial => Element.encode ⟨Tag.integer, serial⟩) id := by
  rw [Reader.reads_id_iff]
  intro bytes serial rest
  rw [readSerial, Reader.run_bind_eq_some_iff]
  constructor
  · rintro ⟨content, middle, taken, inner⟩
    obtain ⟨-, rfl⟩ := Reader.run_content_eq_some_iff.mp taken
    split at inner
    · rename_i proper
      obtain ⟨rfl, rfl⟩ := Reader.run_pure_eq_some_iff.mp inner
      exact ⟨⟨proper.1, proper.2⟩, rfl⟩
    · exact (Reader.run_failure_eq_some_iff.mp inner).elim
  · rintro ⟨readable, rfl⟩
    refine ⟨serial, rest, Reader.run_content_eq_some_iff.mpr ⟨readable.element, rfl⟩, ?_⟩
    rw [if_pos ⟨readable.shortest, readable.short⟩]
    exact Reader.run_pure_eq_some_iff.mpr ⟨rfl, rfl⟩

namespace Validity

def content (validity : Validity) : Bytes :=
  validity.notBefore.encode ++ validity.notAfter.encode

theorem encode_eq (validity : Validity) :
    validity.encode = Element.encode ⟨Tag.sequence, validity.content⟩ := by
  simp only [encode, encodeSequence, content, List.flatten_cons, List.flatten_nil, List.append_nil]

@[mk_iff] structure IsReadable (validity : Validity) : Prop where
  notBefore : validity.notBefore.IsReadable
  notAfter : validity.notAfter.IsReadable
  sequence : Element.IsReadable ⟨Tag.sequence, validity.content⟩

instance (validity : Validity) : Decidable validity.IsReadable :=
  decidable_of_iff' _ (isReadable_iff validity)

theorem reads : Validity.read.Reads IsReadable encode id := by
  rw [Reader.reads_id_iff]
  intro bytes validity rest
  rw [Validity.read, encode_eq, Reader.run_pair_eq_some_iff Time.reads Time.reads]
  constructor
  · rintro ⟨notBefore, notAfter, beforeReadable, afterReadable, sequence, rfl, rfl⟩
    exact ⟨⟨beforeReadable, afterReadable, sequence⟩, rfl⟩
  · rintro ⟨⟨beforeReadable, afterReadable, sequence⟩, rfl⟩
    exact ⟨_, _, beforeReadable, afterReadable, sequence, rfl, rfl⟩

end Validity

namespace PublicKeyInfo

def content (info : PublicKeyInfo) : Bytes :=
  info.algorithm.encode ++ encodeBitString Tag.bitString info.key

theorem encode_eq (info : PublicKeyInfo) :
    info.encode = Element.encode ⟨Tag.sequence, info.content⟩ := by
  simp only [encode, encodeSequence, content, List.flatten_cons, List.flatten_nil, List.append_nil]

@[mk_iff] structure IsReadable (info : PublicKeyInfo) : Prop where
  algorithm : info.algorithm.IsReadable
  key : info.key.IsReadable ∧ Element.IsReadable ⟨Tag.bitString, info.key.content⟩
  sequence : Element.IsReadable ⟨Tag.sequence, info.content⟩

instance (info : PublicKeyInfo) : Decidable info.IsReadable :=
  decidable_of_iff' _ (isReadable_iff info)

theorem reads : PublicKeyInfo.read.Reads IsReadable encode id := by
  rw [Reader.reads_id_iff]
  intro bytes info rest
  rw [PublicKeyInfo.read, encode_eq, Reader.bitString,
    Reader.run_pair_eq_some_iff Algorithm.reads (BitString.reads Tag.bitString)]
  constructor
  · rintro ⟨algorithm, key, algorithmReadable, keyReadable, sequence, rfl, rfl⟩
    exact ⟨⟨algorithmReadable, keyReadable, sequence⟩, rfl⟩
  · rintro ⟨⟨algorithmReadable, keyReadable, sequence⟩, rfl⟩
    exact ⟨_, _, algorithmReadable, keyReadable, sequence, rfl, rfl⟩

end PublicKeyInfo

end Parts

namespace Body

/-- The fields after the subject's key as they are written. Fields that are passed over may stand
before each of the three. -/
structure OptionalFields where
  beforeIssuerId : List Element
  issuerUniqueId : Option BitString
  beforeSubjectId : List Element
  subjectUniqueId : Option BitString
  beforeExtensions : List Element
  extensions : Option Extensions.Layout

namespace OptionalFields

variable {fields : OptionalFields} {number : UInt8}

def read : Reader (Option BitString × Option BitString × Option (List Extension)) := do
  return (← Reader.implicitBitString 1, ← Reader.implicitBitString 2,
    ← Reader.explicit 3 readExtensions)

def extensionsField (fields : OptionalFields) : Bytes :=
  (fields.extensions.map fun extensions =>
    Element.encode ⟨Tag.explicit 3, extensions.encode⟩).getD []

def encode (fields : OptionalFields) : Bytes :=
  fields.beforeIssuerId.flatMap Element.encode ++
    ((fields.issuerUniqueId.map (encodeBitString (Tag.implicit 1))).getD [] ++
      (fields.beforeSubjectId.flatMap Element.encode ++
        ((fields.subjectUniqueId.map (encodeBitString (Tag.implicit 2))).getD [] ++
          (fields.beforeExtensions.flatMap Element.encode ++ fields.extensionsField))))

def values (fields : OptionalFields) :
    Option BitString × Option BitString × Option (List Extension) :=
  (fields.issuerUniqueId, fields.subjectUniqueId,
    fields.extensions.map Extensions.Layout.extensions)

/-- Fields are passed over only after one that was found, since the search for a missing field
has already come to those after it. -/
@[mk_iff] structure IsReadable (fields : OptionalFields) : Prop where
  beforeIssuerId : ∀ element ∈ fields.beforeIssuerId, Reader.IsPassed 1 element
  issuerUniqueId : ∀ bits ∈ fields.issuerUniqueId,
    bits.IsReadable ∧ Element.IsReadable ⟨Tag.implicit 1, bits.content⟩
  beforeSubjectId : ∀ element ∈ fields.beforeSubjectId, Reader.IsPassed 2 element
  subjectUniqueId : ∀ bits ∈ fields.subjectUniqueId,
    bits.IsReadable ∧ Element.IsReadable ⟨Tag.implicit 2, bits.content⟩
  beforeExtensions : ∀ element ∈ fields.beforeExtensions, Reader.IsPassed 3 element
  extensions : ∀ extensions ∈ fields.extensions,
    extensions.IsReadable ∧ Element.IsReadable ⟨Tag.explicit 3, extensions.encode⟩
  afterIssuerId : fields.issuerUniqueId = none → fields.beforeSubjectId = []
  afterSubjectId : fields.subjectUniqueId = none → fields.beforeExtensions = []

instance (fields : OptionalFields) : Decidable fields.IsReadable :=
  decidable_of_iff' _ (isReadable_iff fields)

theorem comesNext_extensionsField (fields : OptionalFields) (lower : number < 3) :
    Reader.ComesNext number false fields.extensionsField := by
  rw [extensionsField]
  cases fields.extensions with
  | none => exact rfl
  | some extensions =>
    have field : Tag.IsOfField 3 (Tag.explicit 3) := Tag.isOfField_explicit (by decide)
    have next := field.comesNext_false lower extensions.encode []
    rwa [List.append_nil] at next

theorem IsReadable.comesNext_extensions (readable : fields.IsReadable)
    (missing : fields.subjectUniqueId = none) (lower : number < 3) :
    Reader.ComesNext number false
      (fields.beforeExtensions.flatMap Element.encode ++ fields.extensionsField) := by
  rw [readable.afterSubjectId missing]
  exact fields.comesNext_extensionsField lower

theorem IsReadable.comesNext_subjectId (readable : fields.IsReadable)
    (missing : fields.issuerUniqueId = none) :
    Reader.ComesNext 1 false (fields.beforeSubjectId.flatMap Element.encode ++
      ((fields.subjectUniqueId.map (encodeBitString (Tag.implicit 2))).getD [] ++
        (fields.beforeExtensions.flatMap Element.encode ++ fields.extensionsField))) := by
  rw [readable.afterIssuerId missing]
  cases present : fields.subjectUniqueId with
  | some bits =>
    exact (Tag.isOfField_implicit (by decide)).comesNext_false (by decide) bits.content _
  | none => exact readable.comesNext_extensions present (by decide)

/-- Unlike other readers this one is not `Reads`: where a field is missing, what it leaves depends
on what follows. It is only run up to the end of a body. -/
theorem run_read_eq_some_iff {bytes : Bytes}
    {result : Option BitString × Option BitString × Option (List Extension)} :
    read.run bytes = some (result, []) ↔
      ∃ fields : OptionalFields, fields.IsReadable ∧ fields.values = result ∧
        bytes = fields.encode := by
  simp only [read, Reader.run_bind_eq_some_iff, Reader.run_pure_eq_some_iff,
    Reader.run_implicitBitString_eq_some_iff (by decide : (1 : UInt8) < 0x1F),
    Reader.run_implicitBitString_eq_some_iff (by decide : (2 : UInt8) < 0x1F),
    Reader.run_explicit_eq_some_iff Extensions.Layout.reads (by decide : (3 : UInt8) < 0x1F),
    existsAndEq, true_and, and_true, and_assoc, List.append_nil]
  constructor
  · rintro ⟨issuerId, subjectId, beforeExtensions, extensions, beforeSubjectId,
      ⟨beforeIssuerId, beforeIssuerReadable, issuerIdReadable, afterIssuerId, rfl⟩,
      beforeSubjectReadable, subjectIdReadable, afterSubjectId, beforeExtensionsReadable,
      extensionsReadable, -, rfl⟩
    refine ⟨⟨beforeIssuerId, issuerId, beforeSubjectId, subjectId, beforeExtensions, extensions⟩,
      ?_, rfl, rfl⟩
    exact
      { beforeIssuerId := beforeIssuerReadable
        issuerUniqueId := issuerIdReadable
        beforeSubjectId := beforeSubjectReadable
        subjectUniqueId := subjectIdReadable
        beforeExtensions := beforeExtensionsReadable
        extensions := extensionsReadable
        afterIssuerId := fun missing => Reader.eq_nil_of_comesNext_false (by decide)
          beforeSubjectReadable (afterIssuerId missing)
        afterSubjectId := fun missing => Reader.eq_nil_of_comesNext_false (by decide)
          beforeExtensionsReadable (afterSubjectId missing) }
  · rintro ⟨fields, readable, rfl, rfl⟩
    exact ⟨fields.issuerUniqueId, fields.subjectUniqueId, fields.beforeExtensions,
      fields.extensions, fields.beforeSubjectId,
      ⟨fields.beforeIssuerId, readable.beforeIssuerId, readable.issuerUniqueId,
        readable.comesNext_subjectId, rfl⟩,
      readable.beforeSubjectId, readable.subjectUniqueId,
      fun missing => readable.comesNext_extensions missing (by decide),
      readable.beforeExtensions, readable.extensions, fun _ => rfl, rfl⟩

def canonical (fields : OptionalFields) : OptionalFields :=
  { fields with
    beforeIssuerId := []
    beforeSubjectId := []
    beforeExtensions := []
    extensions := fields.extensions.map Extensions.Layout.canonical }

def OmitsDefaults (fields : OptionalFields) : Prop :=
  ∀ extensions ∈ fields.extensions, extensions.OmitsDefaults

instance (fields : OptionalFields) : Decidable fields.OmitsDefaults :=
  inferInstanceAs (Decidable (∀ extensions ∈ fields.extensions, extensions.OmitsDefaults))

structure PassesNothing (fields : OptionalFields) : Prop where
  beforeIssuerId : fields.beforeIssuerId = []
  beforeSubjectId : fields.beforeSubjectId = []
  beforeExtensions : fields.beforeExtensions = []

theorem passesNothing_canonical (fields : OptionalFields) : fields.canonical.PassesNothing :=
  ⟨rfl, rfl, rfl⟩

theorem values_canonical (fields : OptionalFields) : fields.canonical.values = fields.values := by
  simp only [values, canonical, Option.map_map, Function.comp_def,
    Extensions.Layout.extensions_canonical]

theorem encode_of_passesNothing (passes : fields.PassesNothing) :
    fields.encode = (fields.issuerUniqueId.map (encodeBitString (Tag.implicit 1))).getD [] ++
      ((fields.subjectUniqueId.map (encodeBitString (Tag.implicit 2))).getD [] ++
        fields.extensionsField) := by
  rw [encode, passes.beforeIssuerId, passes.beforeSubjectId, passes.beforeExtensions]
  rfl

theorem extensionsField_canonical (fields : OptionalFields) :
    fields.canonical.extensionsField =
      ((fields.extensions.map Extensions.Layout.extensions).map fun list =>
        Element.encode ⟨Tag.explicit 3, encodeExtensions list⟩).getD [] := by
  simp only [extensionsField, canonical, Option.map_map, Function.comp_def,
    Extensions.Layout.encode_canonical]

theorem canonical_eq_self (omits : fields.OmitsDefaults) (passes : fields.PassesNothing) :
    fields.canonical = fields := by
  have extensions : fields.extensions.map Extensions.Layout.canonical = fields.extensions := by
    cases present : fields.extensions with
    | none => rfl
    | some extensions =>
      have omitted := omits extensions present
      exact congrArg some (Extensions.Layout.canonical_of_omitsDefaults omitted)
  obtain ⟨beforeIssuerId, beforeSubjectId, beforeExtensions⟩ := passes
  cases fields
  simp only at extensions beforeIssuerId beforeSubjectId beforeExtensions
  simp only [canonical, extensions, beforeIssuerId, beforeSubjectId, beforeExtensions]

theorem length_extensionsField_canonical_le (fields : OptionalFields) :
    fields.canonical.extensionsField.length ≤ fields.extensionsField.length := by
  rw [extensionsField, extensionsField, canonical]
  cases fields.extensions with
  | none => exact Nat.le_refl _
  | some extensions =>
    exact Element.length_encode_mono (Extensions.Layout.length_encode_canonical_le extensions)

theorem length_encode_canonical_le (fields : OptionalFields) :
    fields.canonical.encode.length ≤ fields.encode.length := by
  have extensions := fields.length_extensionsField_canonical_le
  rw [encode_of_passesNothing fields.passesNothing_canonical, encode]
  simp only [List.length_append]
  simp only [canonical] at extensions ⊢
  omega

theorem IsReadable.canonical (readable : fields.IsReadable) : fields.canonical.IsReadable where
  beforeIssuerId := List.forall_mem_nil _
  issuerUniqueId := readable.issuerUniqueId
  beforeSubjectId := List.forall_mem_nil _
  subjectUniqueId := readable.subjectUniqueId
  beforeExtensions := List.forall_mem_nil _
  extensions := by
    intro shortened inside
    obtain ⟨written, present, rfl⟩ := Option.map_eq_some_iff.mp inside
    obtain ⟨inner, field⟩ := readable.extensions written present
    exact ⟨inner.canonical,
      field.of_length_le (Extensions.Layout.length_encode_canonical_le written)⟩
  afterIssuerId _ := rfl
  afterSubjectId _ := rfl

end OptionalFields

/-- A body as it is written. A version may be written where it is the default, and a name's sets
have their members in any order. -/
structure Layout where
  version : Option Version
  serial : Bytes
  signature : Algorithm
  issuer : Name
  validity : Validity
  subject : Name
  subjectKey : PublicKeyInfo
  optionalFields : OptionalFields

namespace Layout

def versionField (layout : Layout) : Bytes :=
  (layout.version.map fun version =>
    Element.encode ⟨Tag.explicit 0, encodeUnsigned version.number⟩).getD []

/-- What stands inside the SEQUENCE of a body. -/
def content (layout : Layout) : Bytes :=
  layout.versionField ++
    (Element.encode ⟨Tag.integer, layout.serial⟩ ++
      (layout.signature.encode ++
        (Name.encode layout.issuer ++
          (layout.validity.encode ++
            (Name.encode layout.subject ++
              (layout.subjectKey.encode ++ layout.optionalFields.encode))))))

def encode (layout : Layout) : Bytes :=
  Element.encode ⟨Tag.sequence, layout.content⟩

def body (layout : Layout) : Body where
  version := layout.version.getD .v1
  serial := layout.serial
  signature := layout.signature
  issuer := Name.sorted layout.issuer
  validity := layout.validity
  subject := Name.sorted layout.subject
  subjectKey := layout.subjectKey
  issuerUniqueId := layout.optionalFields.issuerUniqueId
  subjectUniqueId := layout.optionalFields.subjectUniqueId
  extensions := layout.optionalFields.extensions.map Extensions.Layout.extensions

@[mk_iff] structure IsReadable (layout : Layout) : Prop where
  serial : IsSerial layout.serial
  signature : layout.signature.IsReadable
  issuer : Name.IsReadable layout.issuer
  validity : layout.validity.IsReadable
  subject : Name.IsReadable layout.subject
  subjectKey : layout.subjectKey.IsReadable
  optionalFields : layout.optionalFields.IsReadable
  sequence : Element.IsReadable ⟨Tag.sequence, layout.content⟩

instance (layout : Layout) : Decidable layout.IsReadable :=
  decidable_of_iff' _ (isReadable_iff layout)

variable {layout : Layout}

theorem read_eq : Body.read = Reader.nested Tag.sequence do
    let version := (← Reader.explicit 0 Version.read).getD .v1
    let serial ← readSerial
    let signature ← Algorithm.read
    let issuer ← Name.read
    let validity ← Validity.read
    let subject ← Name.read
    let subjectKey ← PublicKeyInfo.read
    let (issuerUniqueId, subjectUniqueId, extensions) ← OptionalFields.read
    return { version, serial, signature, issuer, validity, subject, subjectKey, issuerUniqueId,
             subjectUniqueId, extensions } := by
  simp only [Body.read, OptionalFields.read, bind_assoc, pure_bind]

theorem reads : Body.read.Reads IsReadable encode body := by
  intro bytes result rest
  rw [read_eq]
  simp only [Reader.run_nested_eq_some_iff, Reader.whole_eq_some_iff, Reader.run_bind_eq_some_iff,
    Reader.run_pure_eq_some_iff, Reader.reads_id_iff.mp reads_serial _ _ _,
    Reader.reads_id_iff.mp Algorithm.reads _ _ _, Name.reads _ _ _,
    Reader.reads_id_iff.mp Validity.reads _ _ _, Reader.reads_id_iff.mp PublicKeyInfo.reads _ _ _,
    Reader.run_explicit_eq_some_iff Version.reads (by decide : (0 : UInt8) < 0x1F),
    OptionalFields.run_read_eq_some_iff, Option.map_id, id, existsAndEq, true_and, and_assoc]
  constructor
  · rintro ⟨version, serial, signature, validity, subjectKey, fields, subject, issuer, passed,
      sequence, passedReadable, -, -, serialReadable, signatureReadable, issuerReadable,
      validityReadable, subjectReadable, keyReadable, fieldsReadable, rfl, rfl⟩
    obtain rfl := Reader.eq_nil_of_isPassed_zero passedReadable
    exact ⟨⟨version, serial, signature, issuer, validity, subject, subjectKey, fields⟩,
      ⟨serialReadable, signatureReadable, issuerReadable, validityReadable, subjectReadable,
        keyReadable, fieldsReadable, sequence⟩, rfl, rfl⟩
  · rintro ⟨layout, readable, rfl, rfl⟩
    have versionReadable (version : Version) :
        Element.IsReadable ⟨Tag.explicit 0, encodeUnsigned version.number⟩ := by
      cases version <;> exact ⟨by decide, by decide⟩
    -- The serial number, which is always there, ends the search for a version.
    have afterVersion (later : Bytes) :
        Reader.ComesNext 0 false (Element.encode ⟨Tag.integer, layout.serial⟩ ++ later) :=
      (Reader.comesNext_encode_append _ _).mpr
        ⟨(by decide : Tag.isKnown Tag.integer = true),
          .inl (by decide : Tag.isContextSpecific Tag.integer = false)⟩
    exact ⟨layout.version, layout.serial, layout.signature, layout.validity, layout.subjectKey,
      layout.optionalFields, layout.subject, layout.issuer, [], readable.sequence,
      List.forall_mem_nil _, fun version _ => versionReadable version, fun _ => afterVersion _,
      readable.serial, readable.signature, readable.issuer, readable.validity, readable.subject,
      readable.subjectKey, readable.optionalFields, rfl, rfl⟩

/-- The layout in which the body is encoded. -/
def canonical (layout : Layout) : Layout :=
  { layout with
    version := if layout.version = some .v1 then none else layout.version
    issuer := Name.sorted layout.issuer
    subject := Name.sorted layout.subject
    optionalFields := layout.optionalFields.canonical }

@[mk_iff] structure IsSorted (layout : Layout) : Prop where
  issuer : Name.IsSorted layout.issuer
  subject : Name.IsSorted layout.subject

instance (layout : Layout) : Decidable layout.IsSorted :=
  decidable_of_iff' _ (isSorted_iff layout)

@[mk_iff] structure OmitsDefaults (layout : Layout) : Prop where
  version : layout.version ≠ some .v1
  optionalFields : layout.optionalFields.OmitsDefaults

instance (layout : Layout) : Decidable layout.OmitsDefaults :=
  decidable_of_iff' _ (omitsDefaults_iff layout)

def PassesNothing (layout : Layout) : Prop :=
  layout.optionalFields.PassesNothing

theorem body_canonical (layout : Layout) : layout.canonical.body = layout.body := by
  have version : (if layout.version = some .v1 then none else layout.version).getD .v1 =
      layout.version.getD .v1 := by
    rcases layout.version with _ | _ | _ | _ <;> rfl
  have values := layout.optionalFields.values_canonical
  simp only [OptionalFields.values, Prod.mk.injEq] at values
  simp only [body, canonical, Name.sorted_sorted, version, values]

theorem versionField_canonical (layout : Layout) :
    layout.canonical.versionField = if layout.body.version = .v1 then []
      else Element.encode ⟨Tag.explicit 0, encodeUnsigned layout.body.version.number⟩ := by
  rw [versionField, canonical, body]
  rcases layout.version with _ | _ | _ | _ <;> rfl

theorem encode_canonical (layout : Layout) : layout.canonical.encode = layout.body.encode := by
  have passes := layout.optionalFields.passesNothing_canonical
  have fields := OptionalFields.encode_of_passesNothing passes
  rw [OptionalFields.extensionsField_canonical] at fields
  rw [encode, content, versionField_canonical, Body.encode, encodeSequence]
  simp only [canonical, fields, List.flatten_cons, List.flatten_nil, List.append_nil]
  rfl

theorem canonical_eq_self (sorted : layout.IsSorted) (omits : layout.OmitsDefaults)
    (passes : layout.PassesNothing) : layout.canonical = layout := by
  rw [canonical, Name.sorted_of_isSorted sorted.issuer, Name.sorted_of_isSorted sorted.subject,
    OptionalFields.canonical_eq_self omits.optionalFields passes, if_neg omits.version]

theorem length_versionField_canonical_le (layout : Layout) :
    layout.canonical.versionField.length ≤ layout.versionField.length := by
  rw [versionField, versionField, canonical]
  dsimp only
  split
  · exact Nat.zero_le _
  · exact Nat.le_refl _

theorem length_content_canonical_le (layout : Layout) :
    layout.canonical.content.length ≤ layout.content.length := by
  have version := layout.length_versionField_canonical_le
  have issuer := Name.length_encode_sorted_le layout.issuer
  have subject := Name.length_encode_sorted_le layout.subject
  have fields := layout.optionalFields.length_encode_canonical_le
  rw [content, content]
  simp only [List.length_append]
  simp only [canonical] at version ⊢
  omega

theorem IsReadable.canonical (readable : layout.IsReadable) : layout.canonical.IsReadable where
  serial := readable.serial
  signature := readable.signature
  issuer := readable.issuer.sorted
  validity := readable.validity
  subject := readable.subject.sorted
  subjectKey := readable.subjectKey
  optionalFields := readable.optionalFields.canonical
  sequence := readable.sequence.of_length_le layout.length_content_canonical_le

theorem length_encode_canonical_le (layout : Layout) :
    layout.canonical.encode.length ≤ layout.encode.length :=
  Element.length_encode_mono layout.length_content_canonical_le

end Layout

end Body

end RequestSigning.Certificate
