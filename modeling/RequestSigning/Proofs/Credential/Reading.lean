import RequestSigning.Credential.Reading
import RequestSigning.Proofs.Except
import RequestSigning.Proofs.Pem.FirstBlock
set_option autoImplicit false

namespace RequestSigning.Credential

variable {pem : Pem}

theorem isPlain_certificate (contents : Bytes) : Pem.IsPlain ⟨certificateTag, [], contents⟩ :=
  ⟨(by decide : certificateTag ≠ ""), (by decide : '-' ∉ certificateTag.toList),
    List.forall_mem_nil _⟩

theorem pkcs1Tag_ne : pkcs1Tag ≠ "" := by
  decide

theorem hyphen_not_mem_pkcs1Tag : '-' ∉ pkcs1Tag.toList := by
  decide

theorem isPlain_pkcs1 (contents : Bytes) : Pem.IsPlain ⟨pkcs1Tag, [], contents⟩ :=
  ⟨pkcs1Tag_ne, hyphen_not_mem_pkcs1Tag, List.forall_mem_nil _⟩

section Blocks

variable {kind : Kind} {input before : Bytes}

theorem readBlock_of_isSome (complete : (Pem.Frame.find? input).isSome) :
    readBlock kind input = (Pem.parse input).mapError (.invalidPem kind) := by
  obtain ⟨frame, found⟩ := Option.isSome_iff_exists.mp complete
  have shown : ¬ input.all Blank.isAsciiBlank = true := fun blank =>
    absurd (List.all_eq_true.mp blank 45 (Pem.Frame.mem_of_find? found)) (by decide)
  rw [readBlock, if_neg shown]

theorem readBlock_eq_ok_iff : readBlock kind input = .ok pem ↔ Pem.parse input = .ok pem := by
  constructor
  · intro read
    rw [readBlock] at read
    split at read
    · cases read
    · exact Except.mapError_eq_ok read
  · intro parsed
    rw [readBlock_of_isSome (Pem.isSome_find?_of_parse parsed), parsed]
    rfl

/-- Only the first block is read, faults included. -/
theorem readBlock_append (complete : (Pem.Frame.find? input).isSome)
    (ahead : Pem.Passes Pem.beginMarker before) (after : Bytes) :
    readBlock kind (before ++ input ++ after) = readBlock kind input := by
  obtain ⟨frame, found⟩ := Option.isSome_iff_exists.mp complete
  have within := Option.isSome_of_mem (Pem.Frame.find?_append found ahead after)
  rw [readBlock_of_isSome within, readBlock_of_isSome complete, Pem.parse_append complete ahead]

end Blocks

theorem parse_block_append (plain : pem.IsPlain) (rest : Bytes) :
    Pem.parse (pem.block ++ rest) = .ok pem := by
  have read := Pem.parse_block plain (.nil Pem.beginMarker) rest
  rwa [List.nil_append] at read

theorem readBlock_block (kind : Kind) (plain : pem.IsPlain) (rest : Bytes) :
    readBlock kind (pem.block ++ rest) = .ok pem :=
  readBlock_eq_ok_iff.mpr (parse_block_append plain rest)

theorem readCertificate_eq_ok_iff {input : Bytes} {certificate : Certificate} :
    readCertificate input = .ok certificate ↔
      ∃ block, Pem.parse input = .ok block ∧ block.tag = certificateTag ∧
        Certificate.ofDer? block.contents = some certificate := by
  constructor
  · intro read
    rw [readCertificate] at read
    obtain ⟨block, found, read⟩ := Except.bind_eq_ok read
    dsimp only [bind, Except.bind] at read
    split at read
    · cases read
    · rename_i tagged
      split at read
      · rename_i value decoded
        cases read
        exact ⟨block, readBlock_eq_ok_iff.mp found, not_not.mp tagged, decoded⟩
      · cases read
  · rintro ⟨block, parsed, tagged, decoded⟩
    rw [readCertificate, readBlock_eq_ok_iff.mpr parsed]
    simp only [bind, Except.bind, tagged, decoded]
    rfl

theorem readPrivateKey_block (plain : pem.IsPlain) (tagged : pem.tag = pkcs1Tag) (rest : Bytes)
    (passphrase : Option Bytes) :
    readPrivateKey (pem.block ++ rest) passphrase = readPkcs1 pem passphrase := by
  rw [readPrivateKey, readBlock_block .privateKey plain]
  exact if_pos tagged

/-- A key in the clear is its numbers, whatever passphrase is given. -/
theorem readPrivateKey_of_pkcs1 {input contents : Bytes}
    (parsed : Pem.parse input = .ok ⟨pkcs1Tag, [], contents⟩) (passphrase : Option Bytes) :
    readPrivateKey input passphrase =
      (match Rsa.PrivateKey.ofPkcs1? contents with
        | some key => .ok key
        | none => .error .invalidPkcs1) := by
  rw [readPrivateKey, readBlock_eq_ok_iff.mpr parsed]
  rfl

theorem readPrivateKey_of_pkcs8 {input : Bytes} (parsed : Pem.parse input = .ok pem)
    (tagged : pem.tag = pkcs8Tag) (passphrase : Option Bytes) :
    readPrivateKey input passphrase =
      (match Rsa.PrivateKey.ofPkcs8? pem.contents with
        | some key => .ok key
        | none => .error .invalidPkcs8) := by
  rw [readPrivateKey, readBlock_eq_ok_iff.mpr parsed]
  dsimp only [bind, Except.bind]
  rw [tagged, if_neg (by decide), if_pos rfl]
  rfl

theorem readPrivateKey_pkcs1 (contents rest : Bytes) (passphrase : Option Bytes) :
    readPrivateKey (Pem.block ⟨pkcs1Tag, [], contents⟩ ++ rest) passphrase =
      (match Rsa.PrivateKey.ofPkcs1? contents with
        | some key => .ok key
        | none => .error .invalidPkcs1) :=
  readPrivateKey_of_pkcs1 (parse_block_append (isPlain_pkcs1 contents) rest) passphrase

section Samples

/-- The content of a certificate without names. -/
def plainCertificate : Bytes :=
  [48, 70, 48, 58, 2, 1, 1, 48, 5, 6, 3, 42, 3, 4, 48, 0, 48, 30, 23, 13, 48, 48, 48, 49, 48, 49,
    48, 48, 48, 48, 48, 48, 90, 23, 13, 48, 48, 48, 49, 48, 49, 48, 48, 48, 48, 48, 48, 90, 48, 0,
    48, 10, 48, 5, 6, 3, 42, 3, 4, 3, 1, 0, 48, 5, 6, 3, 42, 3, 4, 3, 1, 0]

/-- The content of the key of 33 = 3 · 11. -/
def plainKey : Bytes :=
  [48, 27, 2, 1, 0, 2, 1, 33, 2, 1, 3, 2, 1, 7, 2, 1, 3, 2, 1, 11, 2, 1, 0, 2, 1, 0, 2, 1, 0]

/-- The content of the key `Rsa.PrivateKey.smallest`. -/
def smallestKey : Bytes :=
  [48, 129, 212, 2, 1, 0, 2, 63, 0, 215, 109, 159, 150, 147, 35, 245, 105, 148, 13, 134, 89, 246,
    214, 10, 243, 110, 77, 83, 66, 54, 211, 118, 36, 250, 17, 212, 122, 131, 103, 232, 245, 245,
    225, 105, 125, 227, 114, 200, 7, 148, 198, 208, 127, 205, 71, 117, 73, 80, 173, 204, 214, 58,
    26, 209, 51, 10, 169, 31, 60, 208, 247, 2, 1, 3, 2, 62, 5, 33, 22, 21, 222, 238, 146, 8, 155,
    231, 240, 233, 194, 212, 85, 152, 20, 233, 117, 202, 184, 41, 155, 49, 164, 110, 35, 137, 3,
    32, 243, 55, 159, 38, 0, 158, 248, 26, 204, 46, 25, 56, 78, 180, 90, 30, 96, 173, 3, 216, 148,
    176, 175, 90, 49, 216, 68, 155, 121, 98, 20, 175, 2, 32, 0, 228, 150, 54, 250, 127, 14, 171,
    76, 79, 155, 6, 135, 50, 46, 37, 194, 21, 168, 42, 6, 236, 65, 173, 234, 5, 117, 67, 139, 13,
    89, 11, 2, 32, 0, 241, 67, 110, 84, 234, 32, 97, 252, 39, 214, 131, 95, 182, 214, 37, 214,
    209, 6, 251, 96, 237, 51, 160, 185, 178, 83, 227, 170, 24, 19, 69, 2, 1, 0, 2, 1, 0, 2, 1, 0]

def certificateText (contents : Bytes) : Bytes :=
  Pem.render ⟨certificateTag, [], contents⟩

def keyText (contents : Bytes) : Bytes :=
  Pem.render ⟨pkcs1Tag, [], contents⟩

theorem exists_readCertificate_plain :
    ∃ certificate, readCertificate (certificateText plainCertificate) = .ok certificate := by
  have valid : (Certificate.ofDer? plainCertificate).isSome := by decide +kernel
  obtain ⟨certificate, decoded⟩ := Option.isSome_iff_exists.mp valid
  exact ⟨certificate, readCertificate_eq_ok_iff.mpr
    ⟨_, Pem.parse_render (isPlain_certificate _), rfl, decoded⟩⟩

theorem readPrivateKey_keyText {contents : Bytes} {key : Rsa.PrivateKey}
    (decoded : Rsa.PrivateKey.ofPkcs1? contents = some key) (passphrase : Option Bytes) :
    readPrivateKey (keyText contents) passphrase = .ok key := by
  rw [keyText, readPrivateKey_of_pkcs1 (Pem.parse_render (isPlain_pkcs1 _)), decoded]

end Samples

end RequestSigning.Credential
