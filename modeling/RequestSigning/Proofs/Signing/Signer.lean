import RequestSigning.Proofs.Http.Header
import RequestSigning.Proofs.Http.Request
import RequestSigning.Proofs.Rsa.Signature
import RequestSigning.Proofs.Signing.Authorization
import RequestSigning.Proofs.Signing.Canonical
import RequestSigning.Signing.Signer
set_option autoImplicit false

namespace RequestSigning

open Http

namespace Signing

/-- The headers that are written for a signed body. -/
def bodyHeaders : List HeaderName :=
  [.contentLength, contentDigest]

theorem installBodyDigest_of_error {request : Request} {text : String}
    (failed : request.body.collect = .error text) :
    installBodyDigest request = (.error (.bodyRead text), { request with body := [] }) := by
  simp only [installBodyDigest, computeBodyDigest, failed]

theorem installBodyDigest_of_ok {request : Request} {bytes : Bytes}
    (collected : request.body.collect = .ok bytes) :
    installBodyDigest request =
      (.ok (), { request with
        headers := (request.headers.insert .contentLength (.ofNat bytes.length)).insert
          contentDigest (digestText bytes)
        body := Body.ofBytes bytes }) := by
  simp only [installBodyDigest, computeBodyDigest, collected]

theorem installBodyDigest_eq_ok {request after : Request}
    (installed : installBodyDigest request = (.ok (), after)) :
    ∃ bytes, request.body.collect = .ok bytes ∧ after = { request with
      headers := (request.headers.insert .contentLength (.ofNat bytes.length)).insert
        contentDigest (digestText bytes)
      body := Body.ofBytes bytes } := by
  cases collected : request.body.collect with
  | error text =>
    rw [installBodyDigest_of_error collected] at installed
    cases installed
  | ok bytes =>
    rw [installBodyDigest_of_ok collected] at installed
    cases installed
    exact ⟨bytes, rfl, rfl⟩

theorem sameBut_installBodyDigest (request : Request) :
    request.SameBut bodyHeaders (installBodyDigest request).2 := by
  cases collected : request.body.collect with
  | error text =>
    rw [installBodyDigest_of_error collected]
    exact ⟨rfl, rfl, fun _ _ => rfl⟩
  | ok bytes =>
    rw [installBodyDigest_of_ok collected]
    refine ⟨rfl, rfl, fun name outside => ?_⟩
    have length : HeaderName.contentLength ≠ name := fun same =>
      outside (by simp [bodyHeaders, ← same])
    have digest : contentDigest ≠ name := fun same =>
      outside (by simp [bodyHeaders, ← same])
    simp only [Headers.values_insert, length, digest, ↓reduceIte]

namespace BodyPredicate

/-- One of the two predicates that signers are built with. -/
def IsStandard (predicate : BodyPredicate) : Prop :=
  predicate = stateChanging ∨ predicate = explicitOnly

/-- A standard predicate reads the method and the marker alone. -/
theorem IsStandard.holds_congr {predicate : BodyPredicate} (standard : predicate.IsStandard)
    (method : Method) {headers others : Headers}
    (marker : headers.get? bodyMarker = others.get? bodyMarker) :
    predicate.holds method headers = predicate.holds method others := by
  have marked : isMarked headers = isMarked others := by rw [isMarked, isMarked, marker]
  rcases standard with rfl | rfl
  · simp only [stateChanging, marked]
  · simp only [explicitOnly, marked]

end BodyPredicate

section agreement

variable {changed : List HeaderName} {before after : Request}

theorem headerText_of_sameBut (same : before.SameBut changed after) {name : HeaderName}
    (outside : name ∉ changed) :
    headerText after.headers name = headerText before.headers name := by
  rw [headerText, headerText, same.get? outside]

/-- A name has its value from the headers that it names, or from the host header. -/
theorem nameValue_of_sameBut (same : before.SameBut changed after) (host : .host ∉ changed)
    {name : String} (apart : ∀ header ∈ changed, header.text ≠ lowercase name) :
    nameValue after name = nameValue before name := by
  rw [nameValue, nameValue, same.method, same.uri, hostText, hostText,
    headerText_of_sameBut same host]
  cases read : HeaderName.ofText? name with
  | none => rfl
  | some header =>
    have outside : header ∉ changed := fun inside =>
      apart header inside (HeaderName.text_of_ofText? read)
    rw [Option.map_some, Option.map_some, headerText_of_sameBut same outside]

theorem signingString_of_sameBut (same : before.SameBut changed after) (host : .host ∉ changed)
    {names : List String}
    (apart : ∀ name ∈ names, ∀ header ∈ changed, header.text ≠ lowercase name) :
    signingString after names = signingString before names := by
  apply signingString_congr rfl
  apply List.map_congr_left
  intro name listed
  apply nameValue_of_sameBut same host
  rw [lowercase_lowercase]
  exact apart name listed

theorem signsBody_of_sameBut {config : Config} (standard : config.predicate.IsStandard)
    (same : before.SameBut changed after) (marker : bodyMarker ∉ changed) :
    config.signsBody after = config.signsBody before := by
  rw [Config.signsBody, Config.signsBody, same.method]
  exact standard.holds_congr _ (same.get? marker)

end agreement

section steps

variable {config : Config} {provider early late : Option KeyProvider} {request after : Request}

/-- Preparing settles the names by what the predicate says beforehand, and leaves the request as
it is where the body is not signed. -/
theorem Config.prepare_cases {names : List String}
    (prepared : config.prepare request = (.ok names, after)) :
    names = config.names (config.signsBody request) ∧
      (config.signsBody request = true ∧ installBodyDigest request = (.ok (), after) ∨
        config.signsBody request = false ∧ after = request) := by
  rw [Config.prepare] at prepared
  split at prepared
  · rename_i withBody
    split at prepared
    · cases prepared
    · rename_i installed
      cases prepared
      exact ⟨by rw [withBody], .inl ⟨withBody, installed⟩⟩
  · rename_i withoutBody
    rw [Bool.not_eq_true] at withoutBody
    cases prepared
    exact ⟨by rw [withoutBody], .inr ⟨withoutBody, rfl⟩⟩

theorem Config.prepare_eq_ok {names : List String}
    (prepared : config.prepare request = (.ok names, after)) :
    names = config.names (config.signsBody request) ∧ request.SameBut bodyHeaders after := by
  obtain ⟨named, ⟨-, installed⟩ | ⟨-, rfl⟩⟩ := Config.prepare_cases prepared
  · have same := sameBut_installBodyDigest request
    rw [installed] at same
    exact ⟨named, same⟩
  · exact ⟨named, .refl bodyHeaders after⟩

theorem computeSignature_eq_ok {text : String} {signature : Bytes}
    (computed : computeSignature provider text = .ok signature) :
    ∃ answers key, provider = some answers ∧ answers.privateKey = .ok key ∧
      key.sign (Bytes.ofString text) = .ok signature := by
  cases provider with
  | none => cases computed
  | some answers =>
    simp only [computeSignature] at computed
    cases asked : answers.privateKey with
    | error error =>
      rw [asked] at computed
      cases computed
    | ok key =>
      rw [asked] at computed
      refine ⟨answers, key, rfl, asked, ?_⟩
      cases signed : key.sign (Bytes.ofString text) with
      | error fault =>
        simp [signed, bind, Except.bind, Except.mapError] at computed
      | ok bytes =>
        simpa [signed, bind, Except.bind, Except.mapError] using computed

theorem authorize_eq_ok {names : List String} {signature : Bytes}
    (authorized : authorize provider names signature request = .ok after) :
    ∃ answers keyId value, provider = some answers ∧ answers.keyId = .ok keyId ∧
      value.bytes = Bytes.ofString (Authorization.text ⟨names.map lowercase, keyId, signature⟩) ∧
      after = { request with headers := request.headers.insert .authorization value } := by
  cases provider with
  | none => cases authorized
  | some answers =>
    simp only [authorize] at authorized
    cases asked : answers.keyId with
    | error error =>
      rw [asked] at authorized
      cases authorized
    | ok keyId =>
      simp only [asked, bind, Except.bind] at authorized
      split at authorized
      · rename_i value valid
        cases authorized
        exact ⟨answers, keyId, value, rfl, asked, HeaderValue.bytes_of_ofText? valid, rfl⟩
      · cases authorized

/-- The steps that a signature has taken: preparing, signing, authorizing. -/
theorem Config.sign_eq_ok (signed : config.sign early late request = (.ok (), after)) :
    ∃ prepared signature,
      config.prepare request = (.ok (config.names (config.signsBody request)), prepared) ∧
      computeSignature early
        (Signing.signingString prepared (config.names (config.signsBody request))) = .ok signature ∧
      authorize late (config.names (config.signsBody request)) signature prepared = .ok after := by
  rw [Config.sign] at signed
  split at signed
  · cases signed
  · rename_i names prepared preparing
    obtain ⟨rfl, -⟩ := Config.prepare_eq_ok preparing
    split at signed
    · cases signed
    · rename_i signature computed
      split at signed
      · cases signed
      · rename_i authorized
        cases signed
        exact ⟨prepared, signature, preparing, computed, authorized⟩

/-- What is written into the authorization header. -/
theorem Config.authorization_of_sign
    (signed : config.sign early late request = (.ok (), after)) :
    ∃ provider keyId value signature, late = some provider ∧ provider.keyId = .ok keyId ∧
      after.headers.values .authorization = [value] ∧
      value.bytes = Bytes.ofString (Authorization.text
        ⟨(config.names (config.signsBody request)).map lowercase, keyId, signature⟩) := by
  obtain ⟨prepared, bytes, -, -, authorized⟩ := Config.sign_eq_ok signed
  obtain ⟨provider, keyId, value, provided, answer, written, rfl⟩ := authorize_eq_ok authorized
  exact ⟨provider, keyId, value, bytes, provided, answer, by simp, written⟩

/-- The text of a request as it was before its authorization header was set has a signature in
that header, which the key verifies. -/
def Config.IsSignedBy (config : Config) (request after : Request) (key : Rsa.PublicKey)
    (keyId : String) : Prop :=
  let names := config.genericNames ++ if config.signsBody request then config.bodyNames else []
  ∃ prepared value signature,
    request.SameBut bodyHeaders prepared ∧
    after = { prepared with headers := prepared.headers.insert .authorization value } ∧
    value.bytes = Bytes.ofString (Authorization.text ⟨names.map lowercase, keyId, signature⟩) ∧
    key.verify (Bytes.ofString (Signing.signingString prepared names)) signature = true

/-- Whatever is signed is signed by the key, and under the key id, that are asked for. -/
theorem Config.isSignedBy_of_sign (signed : config.sign early late request = (.ok (), after)) :
    ∃ provider key again keyId, early = some provider ∧ provider.privateKey = .ok key ∧
      late = some again ∧ again.keyId = .ok keyId ∧
      config.IsSignedBy request after key.publicKey keyId := by
  obtain ⟨prepared, bytes, preparing, computed, authorized⟩ := Config.sign_eq_ok signed
  obtain ⟨-, same⟩ := Config.prepare_eq_ok preparing
  obtain ⟨provider, key, provided, keyAnswer, signature⟩ := computeSignature_eq_ok computed
  obtain ⟨again, keyId, value, providedAgain, idAnswer, written, rfl⟩ := authorize_eq_ok authorized
  exact ⟨provider, key, again, keyId, provided, keyAnswer, providedAgain, idAnswer,
    prepared, value, bytes, same, rfl, written, key.verify_of_sign signature⟩

end steps

theorem signingString_lowercase (request : Request) (names : List String) :
    signingString request (names.map lowercase) = signingString request names := by
  apply signingString_congr <;> simp [Function.comp_def]

end Signing

end RequestSigning
