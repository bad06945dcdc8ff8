import RequestSigning.Proofs.Signing.Verification
set_option autoImplicit false

namespace RequestSigning.Signing

open Http

section body

variable {request after : Request}

theorem isText_digestText (bytes : Bytes) : (digestText bytes).IsText :=
  HeaderValue.isText_of_ascii fun _ inside => Base64.lt_of_mem_encode inside

theorem areTexts_of_installBodyDigest (texts : request.headers.AreTexts)
    (installed : installBodyDigest request = (.ok (), after)) : after.headers.AreTexts := by
  obtain ⟨bytes, -, rfl⟩ := installBodyDigest_eq_ok installed
  exact (texts.insert (HeaderValue.isText_ofNat _) _).insert (isText_digestText bytes) _

theorem values_of_installBodyDigest (installed : installBodyDigest request = (.ok (), after))
    {name : HeaderName} (inside : name ∈ bodyHeaders) :
    ∃ value, after.headers.values name = [value] := by
  obtain ⟨bytes, -, rfl⟩ := installBodyDigest_eq_ok installed
  have different : contentDigest ≠ .contentLength := by decide
  rcases List.mem_pair.mp inside with rfl | rfl
  · exact ⟨_, by rw [Headers.values_insert, if_neg different, Headers.values_insert, if_pos rfl]⟩
  · exact ⟨_, by rw [Headers.values_insert, if_pos rfl]⟩

end body

namespace Config

variable {config : Config} {early late : Option KeyProvider} {request prepared after : Request}
variable {names : List String}

/-- What a signature leaves of the request: its method and address, and all headers but those
that signing writes. -/
theorem sameBut_of_sign (signed : config.sign early late request = (.ok (), after)) :
    request.SameBut (.authorization :: bodyHeaders) after := by
  obtain ⟨prepared, signature, preparing, -, authorized⟩ := sign_eq_ok signed
  obtain ⟨-, same⟩ := prepare_eq_ok preparing
  obtain ⟨_, _, value, -, -, -, rfl⟩ := authorize_eq_ok authorized
  refine ⟨same.method, same.uri, fun name outside => ?_⟩
  have authorization : HeaderName.authorization ≠ name := fun here =>
    outside (here ▸ List.mem_cons_self)
  have body : name ∉ bodyHeaders := fun inside => outside (List.mem_cons_of_mem _ inside)
  rw [Headers.values_insert, if_neg authorization, same.values name body]

/-- Each header of a body that is signed has one value. -/
theorem values_of_sign (signed : config.sign early late request = (.ok (), after))
    (withBody : config.signsBody request = true) {name : HeaderName} (inside : name ∈ bodyHeaders) :
    ∃ value, after.headers.values name = [value] := by
  obtain ⟨prepared, signature, preparing, -, authorized⟩ := sign_eq_ok signed
  obtain ⟨_, _, written, -, -, -, rfl⟩ := authorize_eq_ok authorized
  have different : HeaderName.authorization ≠ name := by
    rintro rfl
    exact absurd inside (by decide)
  rw [Headers.values_insert, if_neg different]
  rcases (prepare_cases preparing).2 with ⟨-, installed⟩ | ⟨withoutBody, -⟩
  · exact values_of_installBodyDigest installed inside
  · rw [withBody] at withoutBody
    cases withoutBody

theorem areTexts_of_sign (texts : request.headers.AreTexts)
    (signed : config.sign early late request = (.ok (), after)) : after.headers.AreTexts := by
  obtain ⟨prepared, signature, preparing, -, authorized⟩ := sign_eq_ok signed
  obtain ⟨_, _, value, -, -, written, rfl⟩ := authorize_eq_ok authorized
  have preparedTexts : prepared.headers.AreTexts := by
    rcases (prepare_cases preparing).2 with ⟨-, installed⟩ | ⟨-, rfl⟩
    · exact areTexts_of_installBodyDigest texts installed
    · exact texts
  exact preparedTexts.insert ⟨_, written⟩ _

/-- The key that was asked for has signed what the request says afterwards, and its signature
stands in the authorization header. -/
theorem IsSound.verify_of_sign (sound : config.IsSound)
    (signed : config.sign early late request = (.ok (), after)) :
    let names := config.names (config.signsBody request)
    ∃ provider key again keyId value bytes, early = some provider ∧ provider.privateKey = .ok key ∧
      late = some again ∧ again.keyId = .ok keyId ∧
      after.headers.values .authorization = [value] ∧
      value.bytes = Bytes.ofString (Authorization.text ⟨names.map lowercase, keyId, bytes⟩) ∧
      key.publicKey.verify (Bytes.ofString (Signing.signingString after names)) bytes = true := by
  intro names
  obtain ⟨provider, key, again, keyId, provided, keyAnswer, providedAgain, idAnswer,
    prepared, value, bytes, -, rfl, written, verified⟩ := isSignedBy_of_sign signed
  refine ⟨provider, key, again, keyId, value, bytes, provided, keyAnswer, providedAgain, idAnswer,
    by simp, written, ?_⟩
  rw [sound.signingString_authorized]
  exact verified

end Config

end RequestSigning.Signing
