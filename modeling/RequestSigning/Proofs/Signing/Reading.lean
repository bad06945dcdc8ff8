import RequestSigning.Proofs.Signing.Verification
set_option autoImplicit false

namespace RequestSigning

open Http

namespace Signing

theorem isWord_lowercase_iff {name : String} : IsWord (lowercase name) ↔ IsWord name := by
  have space : ' ' ∈ (lowercase name).toList ↔ ' ' ∈ name.toList := mem_lowercase_iff (by decide)
  have quote : '"' ∈ (lowercase name).toList ↔ '"' ∈ name.toList := mem_lowercase_iff (by decide)
  rw [IsWord, IsWord, ne_eq, lowercase_eq_empty_iff, space, quote]

/-- A reader of the header is told the key id and the names exactly where the key id holds no
quotation mark and each name is a word without one. Nothing is escaped and nothing of this is
looked at in signing, which refuses only what no header value can hold. -/
theorem Config.exists_tells_iff_of_sign (config : Config) (early late : Option KeyProvider)
    (request after : Request) (signed : config.sign early late request = (.ok (), after)) :
    let names := config.names (config.signsBody request)
    ∃ provider keyId value, late = some provider ∧ provider.keyId = .ok keyId ∧
      after.headers.values .authorization = [value] ∧
      ((∃ parameters, Authorization.parse? value.text = some parameters ∧
        Authorization.Tells parameters keyId (names.map lowercase)) ↔
          '"' ∉ keyId.toList ∧ ∀ name ∈ names, IsWord name) ∧
      ∀ text ∈ keyId :: names.map lowercase,
        (Bytes.ofString text).all isHeaderValueByte = true := by
  intro names
  obtain ⟨provider, keyId, value, signature, provided, answer, values, written⟩ :=
    Config.authorization_of_sign signed
  let authorization : Authorization := ⟨names.map lowercase, keyId, signature⟩
  have text : value.text = authorization.text := by
    rw [HeaderValue.text, written, Bytes.toStringLossy_ofString]
  have admissible {part : String} (inside : part.toList ⊆ authorization.text.toList) :
      (Bytes.ofString part).all isHeaderValueByte = true := by
    rw [List.all_eq_true]
    intro b member
    have whole := value.valid
    rw [written, List.all_eq_true] at whole
    exact whole b (Bytes.ofString_subset inside member)
  refine ⟨provider, keyId, value, provided, answer, values, ?_, ?_⟩
  · rw [text, authorization.exists_tells_iff, List.forall_mem_map]
    simp only [isWord_lowercase_iff]
    exact Iff.rfl
  · rw [List.forall_mem_cons]
    exact ⟨admissible authorization.keyId_subset_text,
      fun name listed => admissible (authorization.name_subset_text listed)⟩

/-- A key id with a comma, spaces, an equals sign and a letter that is not ASCII, and a name
that no header has. -/
theorem Config.exists_tells_of_commas :
    let config : Config := { genericNames := ["Date", "naïve"], bodyNames := [] }
    let provider : KeyProvider := ⟨.ok .smallest, .ok "clé=1, x", 0⟩
    let request : Request :=
      { method := .get, uri := .originForm .root, headers := .empty, body := [] }
    ∃ after value parameters,
      config.sign (some provider) (some provider) request = (.ok (), after) ∧
      after.headers.values .authorization = [value] ∧
      Authorization.parse? value.text = some parameters ∧
      Authorization.Tells parameters "clé=1, x" ["date", "naïve"] := by
  intro config provider request
  have prepared : (config.prepare request).1 = .ok ["Date", "naïve"] := by decide +kernel
  obtain ⟨after, signed⟩ := config.exists_sign request provider provider prepared rfl
    Rsa.PrivateKey.exists_sign_smallest rfl (by decide +kernel)
  obtain ⟨_, keyId, value, provided, answer, values, tells, -⟩ :=
    config.exists_tells_iff_of_sign (some provider) (some provider) request after signed
  cases provided
  cases answer
  have names : config.names (config.signsBody request) = ["Date", "naïve"] := by decide +kernel
  rw [names] at tells
  obtain ⟨parameters, read, tells⟩ := tells.mpr (by decide +kernel)
  exact ⟨after, value, parameters, signed, values, read, tells⟩

/-- A quotation mark in a key id ends it, and what follows is read as another parameter. -/
theorem Config.not_tells_of_quotation_mark :
    let provider : KeyProvider := ⟨.ok .smallest, .ok "a\",algorithm=\"none", 0⟩
    let config : Config := {}
    let request : Request :=
      { method := .get, uri := .originForm .root, headers := .empty, body := [] }
    ∃ after value signature,
      config.sign (some provider) (some provider) request = (.ok (), after) ∧
      after.headers.values .authorization = [value] ∧
      Authorization.parse? value.text =
        some [("version", "1"), ("headers", "date (request-target) host"), ("keyId", "a"),
          ("algorithm", "none"), ("algorithm", "rsa-sha256"), ("signature", signature)] ∧
      ¬ ∃ parameters, Authorization.parse? value.text = some parameters ∧
        Authorization.Tells parameters "a\",algorithm=\"none"
          ["date", "(request-target)", "host"] := by
  intro provider config request
  have prepared : (config.prepare request).1 = .ok ["date", "(request-target)", "host"] := by
    decide +kernel
  obtain ⟨after, signed⟩ := config.exists_sign request provider provider prepared rfl
    Rsa.PrivateKey.exists_sign_smallest rfl (by decide +kernel)
  obtain ⟨_, keyId, value, signature, provided, answer, values, written⟩ :=
    Config.authorization_of_sign signed
  cases provided
  cases answer
  have names : (config.names (config.signsBody request)).map lowercase =
      ["date", "(request-target)", "host"] := by decide +kernel
  let parameters : List (String × String) :=
    [("version", "1"), ("headers", "date (request-target) host"), ("keyId", "a"),
      ("algorithm", "none"), ("algorithm", "rsa-sha256"),
      ("signature", (Base64.encode signature).toStringLossy)]
  have text : value.text = Authorization.scheme ++
      ",".intercalate (parameters.map Authorization.written) := by
    rw [HeaderValue.text, written, Bytes.toStringLossy_ofString, names]
    apply String.toList_inj.mp
    simp [Authorization.text_eq, Authorization.scheme, Authorization.written, parameters]
  have plain : ∀ parameter ∈ parameters, Authorization.IsPlain parameter := by
    have quoted : '"' ∉ (Base64.encode signature).toStringLossy.toList :=
      Authorization.quote_not_mem_encode signature
    simp only [parameters, List.forall_mem_cons, Authorization.IsPlain]
    refine ⟨by decide, by decide, by decide, by decide, by decide, ⟨by decide, quoted⟩, ?_⟩
    exact List.forall_mem_nil _
  have few : parameters.length ≤ Authorization.scheme.length := by
    simp only [parameters, List.length_cons, List.length_nil]
    decide
  have read : Authorization.parse? value.text = some parameters := by
    rw [text]
    exact Authorization.parse?_intercalate (List.cons_ne_nil _ _) few plain
  refine ⟨after, value, _, signed, values, read, ?_⟩
  rintro ⟨others, readAgain, tells⟩
  have once := (tells.isPlain readAgain).1
  exact absurd once (by decide)

end Signing

end RequestSigning
