import RequestSigning.Certificate
import RequestSigning.Proofs.Certificate.Body
set_option autoImplicit false

namespace RequestSigning.Certificate

open Der

/-- A certificate as it is written. -/
structure Layout where
  body : Body.Layout
  signatureAlgorithm : Algorithm
  signature : BitString

namespace Layout

variable {layout : Layout}

/-- What stands inside the SEQUENCE of a certificate. -/
def content (layout : Layout) : Bytes :=
  layout.body.encode ++
    (layout.signatureAlgorithm.encode ++ encodeBitString Tag.bitString layout.signature)

def encode (layout : Layout) : Bytes :=
  Element.encode ⟨Tag.sequence, layout.content⟩

def certificate (layout : Layout) : Certificate :=
  ⟨layout.body.body, layout.signatureAlgorithm, layout.signature⟩

@[mk_iff] structure IsReadable (layout : Layout) : Prop where
  body : layout.body.IsReadable
  signatureAlgorithm : layout.signatureAlgorithm.IsReadable
  signature : layout.signature.IsReadable ∧
    Element.IsReadable ⟨Tag.bitString, layout.signature.content⟩
  sequence : Element.IsReadable ⟨Tag.sequence, layout.content⟩

instance (layout : Layout) : Decidable layout.IsReadable :=
  decidable_of_iff' _ (isReadable_iff layout)

theorem reads : Certificate.read.Reads IsReadable encode certificate := by
  intro bytes result rest
  rw [Certificate.read]
  simp only [Reader.run_nested_eq_some_iff, Reader.whole_eq_some_iff, Reader.run_bind_eq_some_iff,
    Reader.run_pure_eq_some_iff, Body.Layout.reads _ _ _,
    Reader.reads_id_iff.mp Algorithm.reads _ _ _, Reader.bitString,
    Reader.reads_id_iff.mp (BitString.reads Tag.bitString) _ _ _, existsAndEq, true_and, and_assoc,
    List.append_nil]
  constructor
  · rintro ⟨algorithm, signature, body, sequence, bodyReadable, algorithmReadable,
      signatureReadable, element, rfl, rfl⟩
    exact ⟨⟨body, algorithm, signature⟩,
      ⟨bodyReadable, algorithmReadable, ⟨signatureReadable, element⟩, sequence⟩, rfl, rfl⟩
  · rintro ⟨⟨body, algorithm, signature⟩,
      ⟨bodyReadable, algorithmReadable, ⟨signatureReadable, element⟩, sequence⟩, rfl, rfl⟩
    exact ⟨algorithm, signature, body, sequence, bodyReadable, algorithmReadable,
      signatureReadable, element, rfl, rfl⟩

/-- The layout in which the certificate is encoded. -/
def canonical (layout : Layout) : Layout :=
  { layout with body := layout.body.canonical }

theorem certificate_canonical (layout : Layout) :
    layout.canonical.certificate = layout.certificate := by
  rw [certificate, canonical, Body.Layout.body_canonical, certificate]

theorem encode_canonical (layout : Layout) :
    layout.canonical.encode = layout.certificate.encode := by
  simp only [encode, content, canonical, Body.Layout.encode_canonical, certificate,
    Certificate.encode, encodeSequence, List.flatten_cons, List.flatten_nil, List.append_nil]

theorem length_content_canonical_le (layout : Layout) :
    layout.canonical.content.length ≤ layout.content.length := by
  have body := layout.body.length_encode_canonical_le
  simp only [content, canonical, List.length_append]
  exact Nat.add_le_add_right body _

theorem IsReadable.canonical (readable : layout.IsReadable) : layout.canonical.IsReadable where
  body := readable.body.canonical
  signatureAlgorithm := readable.signatureAlgorithm
  signature := readable.signature
  sequence := readable.sequence.of_length_le layout.length_content_canonical_le

theorem length_encode_canonical_le (layout : Layout) :
    layout.canonical.encode.length ≤ layout.encode.length :=
  Element.length_encode_mono layout.length_content_canonical_le

/-- The members of every SET stand in order. -/
def IsSorted (layout : Layout) : Prop :=
  layout.body.IsSorted

instance (layout : Layout) : Decidable layout.IsSorted :=
  inferInstanceAs (Decidable layout.body.IsSorted)

/-- No value is written where it is the default. -/
def OmitsDefaults (layout : Layout) : Prop :=
  layout.body.OmitsDefaults

instance (layout : Layout) : Decidable layout.OmitsDefaults :=
  inferInstanceAs (Decidable layout.body.OmitsDefaults)

/-- Nothing is passed over before an optional field. -/
def PassesNothing (layout : Layout) : Prop :=
  layout.body.PassesNothing

theorem encode_certificate (sorted : layout.IsSorted) (omits : layout.OmitsDefaults)
    (passes : layout.PassesNothing) : layout.certificate.encode = layout.encode := by
  rw [← encode_canonical, canonical, Body.Layout.canonical_eq_self sorted omits passes]

end Layout

variable {bytes : Bytes} {certificate : Certificate}

theorem ofDer?_eq_some_iff : ofDer? bytes = some certificate ↔
    ∃ layout : Layout, layout.IsReadable ∧ layout.encode.length ≤ maxLength ∧
      layout.certificate = certificate ∧ bytes = layout.encode :=
  Layout.reads.ofInput_eq_some_iff

/-- What is read is read back from its encoding. -/
theorem ofDer?_encode (read : ofDer? bytes = some certificate) :
    ofDer? certificate.encode = some certificate := by
  obtain ⟨layout, readable, short, rfl, rfl⟩ := ofDer?_eq_some_iff.mp read
  exact ofDer?_eq_some_iff.mpr ⟨layout.canonical, readable.canonical,
    layout.length_encode_canonical_le.trans short, layout.certificate_canonical,
    layout.encode_canonical.symm⟩

end RequestSigning.Certificate
