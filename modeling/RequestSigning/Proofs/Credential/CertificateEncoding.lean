import RequestSigning.Proofs.Certificate
import RequestSigning.Proofs.Credential.Reading
set_option autoImplicit false

namespace RequestSigning

open Credential Der

theorem Credential.readCertificate_layout {layout : Certificate.Layout}
    (readable : layout.IsReadable) (short : layout.encode.length ≤ maxLength) :
    readCertificate (Pem.render ⟨certificateTag, [], layout.encode⟩) = .ok layout.certificate :=
  readCertificate_eq_ok_iff.mpr ⟨_, Pem.parse_render (isPlain_certificate _), rfl,
    Certificate.ofDer?_eq_some_iff.mpr ⟨layout, readable, short, rfl, rfl⟩⟩

/-- A certificate is read back from its encoding, whatever headers stand above it. What was read is
that encoding already if the members of its sets stood in order, its defaults were left out, and no
field of it was passed over. -/
theorem Credential.readCertificate_encode (input : Bytes) (certificate : Certificate)
    (read : readCertificate input = .ok certificate) :
    (∀ text headers, Pem.parse text = .ok ⟨certificateTag, headers, certificate.encode⟩ →
      readCertificate text = .ok certificate) ∧
    readCertificate (Pem.render ⟨certificateTag, [], certificate.encode⟩) = .ok certificate ∧
    ∃ block, Pem.parse input = .ok block ∧
      (∃ layout : Certificate.Layout, layout.IsReadable ∧ layout.encode = block.contents ∧
        layout.certificate = certificate) ∧
      ∀ layout : Certificate.Layout, layout.IsReadable → layout.encode = block.contents →
        layout.IsSorted → layout.OmitsDefaults → layout.PassesNothing →
        certificate.encode = block.contents := by
  obtain ⟨block, parsed, -, decoded⟩ := readCertificate_eq_ok_iff.mp read
  have again (text : Bytes) (headers : List (String × String))
      (wrapped : Pem.parse text = .ok ⟨certificateTag, headers, certificate.encode⟩) :
      readCertificate text = .ok certificate :=
    readCertificate_eq_ok_iff.mpr ⟨_, wrapped, rfl, Certificate.ofDer?_encode decoded⟩
  refine ⟨again, again _ [] (Pem.parse_render (isPlain_certificate _)), block, parsed, ?_, ?_⟩
  · obtain ⟨layout, readable, -, same, written⟩ := Certificate.ofDer?_eq_some_iff.mp decoded
    exact ⟨layout, readable, written.symm, same⟩
  · intro layout readable written sorted omits passes
    have short : layout.encode.length ≤ maxLength := by
      obtain ⟨_, -, short, -, read⟩ := Certificate.ofDer?_eq_some_iff.mp decoded
      rw [written, read]
      exact short
    have found : Certificate.ofDer? block.contents = some layout.certificate :=
      Certificate.ofDer?_eq_some_iff.mpr ⟨layout, readable, short, rfl, written.symm⟩
    obtain rfl := Option.some.inj (decoded.symm.trans found)
    rw [layout.encode_certificate sorted omits passes, written]

/-- A layout with a set out of order, defaults that are written, and fields that are passed over. -/
def Certificate.Layout.verbose : Certificate.Layout where
  body :=
    { version := some .v1
      serial := [0x00, 0x80]
      signature := ⟨⟨[0x2a, 0x03, 0x04]⟩, none⟩
      issuer := [[⟨⟨[0x55, 0x04, 0x04]⟩, ⟨0x0c, [98]⟩⟩, ⟨⟨[0x55, 0x04, 0x03]⟩, ⟨0x0c, [98]⟩⟩]]
      validity := ⟨.utc ⟨1999, 12, 31, 23, 59, 59⟩, .generalized ⟨9999, 12, 31, 23, 59, 59⟩⟩
      subject := []
      subjectKey := ⟨⟨⟨[0x2a, 0x03, 0x04]⟩, some ⟨Tag.null, []⟩⟩, ⟨0, []⟩⟩
      optionalFields :=
        { beforeIssuerId := [⟨0x80, []⟩]
          issuerUniqueId := none
          beforeSubjectId := []
          subjectUniqueId := some ⟨7, [0x80]⟩
          beforeExtensions := [⟨0x81, []⟩]
          extensions := some [⟨⟨[0x55, 0x1d, 0x13]⟩, some false, [0x30, 0x00]⟩] } }
  signatureAlgorithm := ⟨⟨[0x2a, 0x03, 0x04]⟩, none⟩
  signature := ⟨0, []⟩

/-- The verbose layout is read as the same certificate as its encoding, which is written again as
it stands. -/
theorem Credential.readCertificate_encode_verbose :
    let layout := Certificate.Layout.verbose
    readCertificate (Pem.render ⟨certificateTag, [], layout.encode⟩) = .ok layout.certificate ∧
      (∀ text headers, Pem.parse text = .ok ⟨certificateTag, headers, layout.certificate.encode⟩ →
        readCertificate text = .ok layout.certificate) ∧
      readCertificate (Pem.render ⟨certificateTag, [], layout.certificate.encode⟩) =
        .ok layout.certificate ∧
      layout.canonical.IsReadable ∧ layout.canonical.IsSorted ∧ layout.canonical.OmitsDefaults ∧
      layout.canonical.PassesNothing ∧
      layout.canonical.certificate.encode = layout.canonical.encode := by
  intro layout
  have readable : layout.IsReadable := by decide +kernel
  have short : layout.encode.length ≤ maxLength := by decide +kernel
  have sorted : layout.canonical.IsSorted :=
    ⟨Certificate.Name.isSorted_sorted _, Certificate.Name.isSorted_sorted _⟩
  have omits : layout.canonical.OmitsDefaults := by decide +kernel
  have passes : layout.canonical.PassesNothing :=
    Certificate.Body.OptionalFields.passesNothing_canonical _
  have read := readCertificate_layout readable short
  have readCanonical := readCertificate_layout readable.canonical
    (layout.length_encode_canonical_le.trans short)
  obtain ⟨again, rendered, -⟩ := readCertificate_encode _ _ read
  obtain ⟨-, -, block, parsed, -, kept⟩ := readCertificate_encode _ _ readCanonical
  obtain rfl := Except.ok.inj (parsed.symm.trans (Pem.parse_render (isPlain_certificate _)))
  exact ⟨read, again, rendered, readable.canonical, sorted, omits, passes,
    kept _ readable.canonical rfl sorted omits passes⟩

/-- A layout in which a field of number zero stands before the subject's unique id. -/
def Certificate.Layout.withPassedField : Certificate.Layout where
  body :=
    { version := some .v3
      serial := [0x01]
      signature := ⟨⟨[0x2a, 0x86, 0x48, 0x86, 0xf7, 0x0d, 0x01, 0x01, 0x0b]⟩, some ⟨Tag.null, []⟩⟩
      issuer := [[⟨⟨[0x55, 0x04, 0x03]⟩, ⟨0x0c, [105, 115, 115, 117, 101, 114]⟩⟩]]
      validity := ⟨.utc ⟨2024, 1, 1, 0, 0, 0⟩, .utc ⟨2034, 1, 1, 0, 0, 0⟩⟩
      subject := [[⟨⟨[0x55, 0x04, 0x03]⟩, ⟨0x0c, [115, 117, 98, 106, 101, 99, 116]⟩⟩]]
      subjectKey :=
        ⟨⟨⟨[0x2a, 0x86, 0x48, 0x86, 0xf7, 0x0d, 0x01, 0x01, 0x01]⟩, some ⟨Tag.null, []⟩⟩,
          ⟨0, [0x30, 0x0e, 0x02, 0x09, 0x00, 0xcb, 0x51, 0xff, 0xf6, 0x78, 0x91, 0x89, 0x87, 0x02,
            0x01, 0x11]⟩⟩
      optionalFields :=
        { beforeIssuerId := [⟨0x80, []⟩]
          issuerUniqueId := none
          beforeSubjectId := []
          subjectUniqueId := some ⟨0, [0x62]⟩
          beforeExtensions := []
          extensions := none } }
  signatureAlgorithm :=
    ⟨⟨[0x2a, 0x86, 0x48, 0x86, 0xf7, 0x0d, 0x01, 0x01, 0x0b]⟩, some ⟨Tag.null, []⟩⟩
  signature := ⟨0, [0x73]⟩

/-- A field that is passed over is missing from the encoding. -/
theorem Credential.encode_ne_of_passedField :
    let layout := Certificate.Layout.withPassedField
    let input := Pem.render ⟨certificateTag, [], layout.encode⟩
    Pem.parse input = .ok ⟨certificateTag, [], layout.encode⟩ ∧
      readCertificate input = .ok layout.certificate ∧ layout.IsReadable ∧ layout.IsSorted ∧
      layout.OmitsDefaults ∧ layout.certificate.encode ≠ layout.encode := by
  intro layout input
  have readable : layout.IsReadable := by decide +kernel
  have sorted : layout.IsSorted := by decide +kernel
  have short : layout.encode.length ≤ maxLength := by decide +kernel
  refine ⟨Pem.parse_render (isPlain_certificate _), readCertificate_layout readable short, readable,
    sorted, by decide +kernel, ?_⟩
  have kept : layout.canonical =
      { layout with
        body := { layout.body with
          optionalFields := { layout.body.optionalFields with beforeIssuerId := [] } } } := by
    rw [Certificate.Layout.canonical, Certificate.Body.Layout.canonical,
      Certificate.Name.sorted_of_isSorted sorted.issuer,
      Certificate.Name.sorted_of_isSorted sorted.subject]
    rfl
  rw [← layout.encode_canonical, kept]
  decide +kernel

end RequestSigning
