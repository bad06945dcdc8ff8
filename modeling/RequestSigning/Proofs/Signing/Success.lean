import RequestSigning.Proofs.Signing.Signer
set_option autoImplicit false

namespace RequestSigning

open Http

namespace Signing

section authorizing

variable {names : List String} {keyId : String}

/-- The header has the bytes of the key id and of the names, and others that are always legal. -/
theorem Authorization.all_text (signature : Bytes)
    (legal : ∀ text ∈ keyId :: names, (Bytes.ofString text).all isHeaderValueByte = true) :
    (Bytes.ofString (Authorization.text ⟨names, keyId, signature⟩)).all isHeaderValueByte =
      true := by
  have encoded : (Bytes.ofString (Base64.encode signature).toStringLossy).all isHeaderValueByte =
      true := by
    rw [Bytes.ofString_toStringLossy fun _ inside => Base64.lt_of_mem_encode inside]
    exact Base64.all_isHeaderValueByte_encode signature
  have joined : (Bytes.ofString (" ".intercalate names)).all isHeaderValueByte = true := by
    rw [List.all_eq_true]
    intro b inside
    obtain ⟨c, listed, inside⟩ := List.mem_flatMap.mp inside
    rcases mem_intercalate listed with space | ⟨name, named, listed⟩
    · obtain rfl : c = ' ' := by simpa using space
      rw [List.mem_singleton.mp inside]
      decide
    · exact List.all_eq_true.mp (legal name (List.mem_cons_of_mem _ named)) b
        (List.mem_flatMap.mpr ⟨c, listed, inside⟩)
  have literals :
      (Bytes.ofString "Signature version=\"1\",headers=\"").all isHeaderValueByte = true ∧
      (Bytes.ofString "\",keyId=\"").all isHeaderValueByte = true ∧
      (Bytes.ofString "\",algorithm=\"rsa-sha256\",signature=\"").all isHeaderValueByte = true ∧
      (Bytes.ofString "\"").all isHeaderValueByte = true := by
    decide +kernel
  obtain ⟨opening, between, algorithm, closing⟩ := literals
  rw [Authorization.text_eq]
  simp only [Bytes.ofString_append, List.all_append, opening, joined, between,
    legal keyId List.mem_cons_self, algorithm, encoded, closing, Bool.and_self]

end authorizing

/-- Signing succeeds where the body can be read, the key signs everything, and the key id and
the names are legal in a header. -/
theorem Config.exists_sign (config : Config) (request : Request) (early late : KeyProvider)
    {names : List String} {key : Rsa.PrivateKey} {keyId : String}
    (prepared : (config.prepare request).1 = .ok names) (keyAnswer : early.privateKey = .ok key)
    (signs : ∀ message, ∃ signature, key.sign message = .ok signature)
    (idAnswer : late.keyId = .ok keyId)
    (legal : ∀ text ∈ keyId :: names.map lowercase,
      (Bytes.ofString text).all isHeaderValueByte = true) :
    ∃ after, config.sign (some early) (some late) request = (.ok (), after) := by
  cases preparing : config.prepare request with | mk outcome ready
  rw [preparing] at prepared
  cases prepared
  obtain ⟨signature, signed⟩ := signs (Bytes.ofString (Signing.signingString ready names))
  have computed : computeSignature (some early) (Signing.signingString ready names) =
      .ok signature := by
    simp only [computeSignature, keyAnswer, signed, bind, Except.bind, Except.mapError]
  have legalText := Authorization.all_text signature legal
  have written : HeaderValue.ofText? (Authorization.text ⟨names.map lowercase, keyId, signature⟩) =
      some ⟨_, legalText⟩ := dif_pos legalText
  let after : Request :=
    { ready with headers := ready.headers.insert .authorization ⟨_, legalText⟩ }
  have authorized : authorize (some late) names signature ready = .ok after := by
    simp only [authorize, idAnswer, written, bind, Except.bind, pure, Except.pure]
    rfl
  refine ⟨after, ?_⟩
  rw [Config.sign, preparing]
  dsimp only
  rw [computed]
  dsimp only
  rw [authorized]

end Signing

end RequestSigning
