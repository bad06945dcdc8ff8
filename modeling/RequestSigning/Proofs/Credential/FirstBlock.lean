import RequestSigning.Proofs.Credential.Reading
set_option autoImplicit false

namespace RequestSigning.Credential

/-- Where the input has a complete block, what stands around it changes neither what is read nor
the fault, as long as no hyphen comes before it. -/
theorem read_of_surrounded (before input after : Bytes) (passphrase : Option Bytes)
    (complete : (Pem.Frame.find? input).isSome) (plain : 45 ∉ before) :
    readCertificate (before ++ input ++ after) = readCertificate input ∧
      readPrivateKey (before ++ input ++ after) passphrase = readPrivateKey input passphrase := by
  have ahead : Pem.Passes Pem.beginMarker before := Pem.passes_of_not_mem _ plain
  constructor
  · rw [readCertificate, readBlock_append complete ahead, readCertificate]
  · rw [readPrivateKey, readBlock_append complete ahead, readPrivateKey]

/-- Bytes that are not UTF-8 before a block whose tags differ, and the beginning of another block
after it. -/
theorem read_of_surrounded_mismatched :
    let before : Bytes := [0xff, 0x0a]
    let input := Bytes.ofString "-----BEGIN A-----\n=-----END B-----"
    let after := Bytes.ofString "-----BEGIN CERTIFICATE-----" ++ [0xff]
    (Pem.Frame.find? input).isSome ∧ 45 ∉ before ∧
      readCertificate (before ++ input ++ after) = readCertificate input ∧
      readPrivateKey (before ++ input ++ after) none = readPrivateKey input none ∧
      readCertificate input = .error (.invalidPem .certificate (.mismatchedTags "A" "B")) := by
  intro before input after
  have complete : (Pem.Frame.find? input).isSome := by decide +kernel
  have plain : 45 ∉ before := by decide
  obtain ⟨certificate, key⟩ := read_of_surrounded before input after none complete plain
  exact ⟨complete, plain, certificate, key, by decide +kernel⟩

end RequestSigning.Credential
