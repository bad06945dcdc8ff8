import RequestSigning.Proofs.Signing.BodyDigest
import RequestSigning.Proofs.Signing.Effect
set_option autoImplicit false

namespace RequestSigning.Signing

open Http

section frame

variable {bytes : Bytes} {changed : List HeaderName} {before after : Request}

theorem Carries.of_sameBut (carries : Carries bytes before) (same : before.SameBut changed after)
    (outside : .contentLength ∉ changed) (body : after.body = before.body) :
    Carries bytes after where
  body := body.trans carries.body
  length := by rw [same.values _ outside, carries.length]

theorem ShowsDigest.of_sameBut (shows : ShowsDigest bytes before)
    (same : before.SameBut changed after) (outside : contentDigest ∉ changed) :
    ShowsDigest bytes after := by
  rw [ShowsDigest, same.values _ outside]
  exact shows

end frame

/-- How a request that was signed comes out of the one that was given. -/
structure Config.Binds (config : Config) (request after : Request) (key : Rsa.PrivateKey)
    (keyId : String) : Prop where
  rest : request.SameBut (.authorization :: bodyHeaders) after
  /-- All of the request but this header was there when it was signed. -/
  authorization :
    let names := config.genericNames ++ if config.signsBody request then config.bodyNames else []
    ∃ prepared value signature,
      after = { prepared with headers := prepared.headers.insert .authorization value } ∧
      after.headers.values .authorization = [value] ∧
      value.bytes = Bytes.ofString (Authorization.text ⟨names.map lowercase, keyId, signature⟩) ∧
      key.sign (Bytes.ofString (Signing.signingString prepared names)) = .ok signature
  withBody : config.signsBody request = true →
    request.body.failures = [] ∧ Carries request.body.bytes after ∧
      ShowsDigest request.body.bytes after
  withoutBody : config.signsBody request = false →
    after.body = request.body ∧ request.SameBut [.authorization] after

/-- The digest that is signed is that of the bytes that are sent. Where the predicate does not
hold of the request that is given, its body is not even read. -/
theorem Config.binds_of_sign (config : Config) (early late : Option KeyProvider)
    (request after : Request) (signed : config.sign early late request = (.ok (), after)) :
    ∃ provider key again keyId, early = some provider ∧ provider.privateKey = .ok key ∧
      late = some again ∧ again.keyId = .ok keyId ∧ config.Binds request after key keyId := by
  obtain ⟨prepared, signature, preparing, computed, authorized⟩ := Config.sign_eq_ok signed
  obtain ⟨provider, key, provided, keyAnswer, signs⟩ := computeSignature_eq_ok computed
  obtain ⟨again, keyId, value, providedAgain, idAnswer, written, authorizing⟩ :=
    authorize_eq_ok authorized
  have same : prepared.SameBut [.authorization] after := by
    rw [authorizing]
    exact .insert List.mem_cons_self value prepared
  have body : after.body = prepared.body := by rw [authorizing]
  have single : after.headers.values .authorization = [value] := by
    rw [authorizing, Headers.values_insert, if_pos rfl]
  refine ⟨provider, key, again, keyId, provided, keyAnswer, providedAgain, idAnswer, ?_⟩
  constructor
  case rest => exact Config.sameBut_of_sign signed
  case authorization => exact ⟨prepared, value, signature, authorizing, single, written, signs⟩
  case withBody =>
    intro withBody
    rcases (Config.prepare_cases preparing).2 with ⟨-, installed⟩ | ⟨withoutBody, -⟩
    · obtain ⟨readable, settled⟩ := DigestCall.settled_of_installBodyDigest installed
      exact ⟨readable, settled.carries.of_sameBut same (by decide) body,
        (settled.digest List.mem_cons_self).of_sameBut same (by decide)⟩
    · rw [withBody] at withoutBody
      cases withoutBody
  case withoutBody =>
    intro withoutBody
    rcases (Config.prepare_cases preparing).2 with ⟨withBody, -⟩ | ⟨-, rfl⟩
    · rw [withoutBody] at withBody
      cases withBody
    · exact ⟨body, same⟩

/-- An old length given twice and an old digest are replaced by those of the bytes of two frames. -/
theorem Config.binds_of_sign_stale :
    let config : Config := {}
    let provider : KeyProvider := ⟨.ok .smallest, .ok "ST$token", 0⟩
    let request : Request :=
      { method := .post, uri := .originForm .root
        headers := ((Headers.empty.append .contentLength (.ofNat 9)).append contentDigest
          (.ofNat 0)).append .contentLength (.ofNat 8)
        body := [.data [123], .pending, .trailers, .data [125]] }
    ∃ after, config.sign (some provider) (some provider) request = (.ok (), after) ∧
      config.Binds request after .smallest "ST$token" ∧ Carries [123, 125] after ∧
      ShowsDigest [123, 125] after := by
  intro config provider request
  have prepared : (config.prepare request).1 = .ok (config.names true) := by decide +kernel
  obtain ⟨after, signed⟩ := config.exists_sign request provider provider prepared rfl
    Rsa.PrivateKey.exists_sign_smallest rfl (by decide +kernel)
  obtain ⟨_, _, _, _, provided, keyAnswer, providedAgain, idAnswer, binds⟩ :=
    config.binds_of_sign (some provider) (some provider) request after signed
  cases provided
  cases keyAnswer
  cases providedAgain
  cases idAnswer
  obtain ⟨-, carries, shows⟩ := binds.withBody (by decide)
  exact ⟨after, signed, binds, carries, shows⟩

end RequestSigning.Signing
