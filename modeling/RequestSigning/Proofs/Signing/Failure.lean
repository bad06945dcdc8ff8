import RequestSigning.Proofs.Except
import RequestSigning.Proofs.Http.Body
import RequestSigning.Proofs.Signing.Repetition
set_option autoImplicit false

namespace RequestSigning

namespace Signing

open Http

/-- Whether all bytes of a text are legal in a header value. -/
def isLegal (text : String) : Bool :=
  (Bytes.ofString text).all isHeaderValueByte

/-- The first frame that cannot be read, where the body is signed. -/
def Config.bodyFault (config : Config) (request : Request) : Option Error :=
  if config.signsBody request then request.body.failures.head?.map .bodyRead else none

/-- There is no provider, or it has no key. -/
def keyFault : Option KeyProvider → Option Error
  | none => some (.keyUnavailable .noProvider)
  | some provider => faultOf provider.privateKey

/-- The key does not sign the text. -/
def signingFault (provider : Option KeyProvider) (text : String) : Option Error := do
  let key ← (← provider).privateKey.toOption
  faultOf ((key.sign (Bytes.ofString text)).mapError .signing)

/-- The provider has no key id. -/
def keyIdFault (provider : Option KeyProvider) : Option Error := do
  faultOf (← provider).keyId

/-- The key id or a name in lower case is not legal in a header. -/
def headerFault (provider : Option KeyProvider) (names : List String) : Option Error := do
  let keyId ← (← provider).keyId.toOption
  if (keyId :: names.map lowercase).all isLegal then none
  else some (.invalidHeader Error.headerValueText)

/-- The request that is signed: where the body is signed, it is in one piece, and its length and
digest stand in their headers. -/
def Config.ready (config : Config) (request : Request) : Request :=
  if config.signsBody request then
    { request with
      headers := (request.headers.insert .contentLength (.ofNat request.body.bytes.length)).insert
        contentDigest (digestText request.body.bytes)
      body := Body.ofBytes request.body.bytes }
  else request

/-- All that can keep a request from being signed, in the order in which it is met. The key is
asked for by `early`, and the key id by `late`. -/
def Config.faults (config : Config) (early late : Option KeyProvider) (request : Request) :
    List (Option Error) :=
  let names := config.names (config.signsBody request)
  [config.bodyFault request, keyFault early,
    signingFault early (Signing.signingString (config.ready request) names), keyIdFault late,
    headerFault late names]

section ready

variable (config : Config) (request : Request)

theorem Config.sameBut_ready : request.SameBut bodyHeaders (config.ready request) := by
  rw [ready]
  split
  · have same := sameBut_installBodyDigest { request with body := .ofBytes request.body.bytes }
    rw [installBodyDigest_of_ok (Body.collect_ofBytes request.body.bytes)] at same
    exact ⟨same.method, same.uri, same.values⟩
  · exact .refl bodyHeaders request

/-- The headers of a signed body are those of its bytes, whatever they were. -/
theorem Config.values_ready {name : HeaderName} (inside : name ∈ bodyHeaders)
    (withBody : config.signsBody request = true) :
    (config.ready request).headers.values name =
      [if name = contentDigest then digestText request.body.bytes
        else .ofNat request.body.bytes.length] := by
  have different : contentDigest ≠ .contentLength := by decide
  rw [ready, if_pos withBody]
  rcases List.mem_pair.mp inside with rfl | rfl
  · rw [Headers.values_insert, if_neg different, Headers.values_insert, if_pos rfl,
      if_neg different.symm]
  · rw [Headers.values_insert, if_pos rfl, if_pos rfl]

end ready

section stages

variable {config : Config} {request : Request}

theorem Config.prepare_of_bodyFault {error : Error} (fails : config.bodyFault request = some error) :
    config.prepare request = (.error error, { request with body := [] }) := by
  rw [bodyFault] at fails
  split at fails
  · rename_i withBody
    cases listed : request.body.failures with
    | nil =>
      rw [listed] at fails
      cases fails
    | cons text later =>
      rw [listed] at fails
      cases fails
      rw [prepare, if_pos withBody,
        installBodyDigest_of_error (Body.collect_of_failures_eq_cons listed)]
  · cases fails

theorem Config.prepare_of_readable (readable : config.bodyFault request = none) :
    config.prepare request =
      (.ok (config.names (config.signsBody request)), config.ready request) := by
  rw [bodyFault] at readable
  rw [prepare, ready]
  split at readable
  · rename_i withBody
    have whole : request.body.failures = [] := by simpa using readable
    rw [if_pos withBody, if_pos withBody, withBody,
      installBodyDigest_of_ok (Body.collect_of_failures_eq_nil whole)]
  · rename_i withoutBody
    rw [if_neg withoutBody, if_neg withoutBody, Bool.eq_false_iff.mpr withoutBody]

theorem faultOf_computeSignature (provider : Option KeyProvider) (text : String) :
    faultOf (computeSignature provider text) =
      [keyFault provider, signingFault provider text].findSome? id := by
  cases provider with
  | none => rfl
  | some answers =>
    cases asked : answers.privateKey with
    | error error => simp [computeSignature, keyFault, asked, faultOf, bind, Except.bind]
    | ok key =>
      cases signed : key.sign (Bytes.ofString text) <;>
        simp [computeSignature, keyFault, signingFault, asked, signed, faultOf, bind, Except.bind,
          Except.mapError, Except.toOption]

theorem isLegal_of_authorization {keyId text : String} {names : List String} {signature : Bytes}
    (legal : isLegal (Authorization.text ⟨names, keyId, signature⟩) = true)
    (listed : text ∈ keyId :: names) : isLegal text = true := by
  have inside : text.toList ⊆ (Authorization.text ⟨names, keyId, signature⟩).toList := by
    rcases List.mem_cons.mp listed with rfl | named
    · exact Authorization.keyId_subset_text ⟨names, text, signature⟩
    · exact Authorization.name_subset_text ⟨names, keyId, signature⟩ named
  rw [isLegal, List.all_eq_true] at legal ⊢
  exact fun b member => legal b (Bytes.ofString_subset inside member)

/-- What is legal does not depend on the signature. -/
theorem isLegal_authorization (keyId : String) (names : List String) (signature : Bytes) :
    isLegal (Authorization.text ⟨names, keyId, signature⟩) = (keyId :: names).all isLegal := by
  rw [Bool.eq_iff_iff, List.all_eq_true]
  exact ⟨fun legal _ listed => isLegal_of_authorization legal listed,
    Authorization.all_text signature⟩

theorem isSome_ofText? (text : String) : (HeaderValue.ofText? text).isSome = isLegal text := by
  rw [HeaderValue.ofText?, HeaderValue.ofBytes?, isLegal]
  split <;> simp_all

theorem faultOf_authorize (answers : KeyProvider) (names : List String) (signature : Bytes)
    (request : Request) :
    faultOf (authorize (some answers) names signature request) =
      [keyIdFault (some answers), headerFault (some answers) names].findSome? id := by
  cases asked : answers.keyId with
  | error error => simp [authorize, keyIdFault, asked, faultOf, bind, Except.bind]
  | ok keyId =>
    have legal := isSome_ofText? (Authorization.text ⟨names.map lowercase, keyId, signature⟩)
    rw [isLegal_authorization] at legal
    simp only [authorize, keyIdFault, headerFault, asked, faultOf, bind, Except.bind,
      Option.bind_some, Except.toOption, ← legal]
    generalize HeaderValue.ofText? _ = written
    cases written with
    | none => rfl
    | some value => rfl

theorem complete_of_error {early late : Option KeyProvider} {names : List String} {error : Error}
    (failed : (complete early late names request).1 = .error error) :
    (complete early late names request).2 = request := by
  rw [complete] at failed ⊢
  split
  · rfl
  · rename_i signature computed
    rw [computed] at failed
    split
    · rfl
    · rename_i authorized
      dsimp only at failed
      rw [authorized] at failed
      cases failed

/-- A provider that is there for the key is there for the key id. -/
theorem faultOf_complete (provider : Option (KeyProvider × KeyProvider)) (names : List String)
    (request : Request) :
    faultOf (complete (provider.map Prod.fst) (provider.map Prod.snd) names request).1 =
      ([keyFault (provider.map Prod.fst),
          signingFault (provider.map Prod.fst) (Signing.signingString request names)] ++
        [keyIdFault (provider.map Prod.snd),
          headerFault (provider.map Prod.snd) names]).findSome? id := by
  cases provider with
  | none => rfl
  | some answers =>
    obtain ⟨early, late⟩ := answers
    dsimp only [Option.map_some]
    rw [List.findSome?_append, ← faultOf_computeSignature, complete]
    cases computeSignature (some early) (Signing.signingString request names) with
    | error error => rfl
    | ok signature =>
      rw [← faultOf_authorize late names signature request]
      dsimp only [faultOf, Option.none_or]
      cases authorize (some late) names signature request <;> rfl

end stages

section signing

variable (config : Config) (provider : Option (KeyProvider × KeyProvider)) (request : Request)

theorem Config.faultOf_sign :
    faultOf (config.sign (provider.map Prod.fst) (provider.map Prod.snd) request).1 =
      (config.faults (provider.map Prod.fst) (provider.map Prod.snd) request).findSome? id := by
  cases read : config.bodyFault request with
  | some error =>
    rw [sign_of_prepare_eq_error (prepare_of_bodyFault read), faults, read]
    rfl
  | none =>
    rw [sign_of_prepare_eq_ok (prepare_of_readable read), faultOf_complete, faults, read]
    rfl

/-- What a failure leaves behind. -/
theorem Config.sign_of_error {early late : Option KeyProvider} {error : Error}
    (failed : (config.sign early late request).1 = .error error) :
    (config.sign early late request).2 =
      if config.bodyFault request = none then config.ready request
      else { request with body := [] } := by
  cases read : config.bodyFault request with
  | some fault => rw [sign_of_prepare_eq_error (prepare_of_bodyFault read)]; rfl
  | none =>
    rw [sign_of_prepare_eq_ok (prepare_of_readable read)] at failed ⊢
    rw [complete_of_error failed, if_pos rfl]

end signing

/-- Signing fails with the first of what can keep it from succeeding, and succeeds where there is
nothing of the kind. What fails leaves the method, the address, the authorization and every other
header as they were, but for those of a signed body: a body that cannot be read is lost, and one
that can be is in one piece, with its length and digest in their headers. -/
theorem Config.sign_eq_first_fault (config : Config) (provider : Option (KeyProvider × KeyProvider))
    (request : Request) :
    let early := provider.map Prod.fst
    let late := provider.map Prod.snd
    let outcome := config.sign early late request
    outcome.1 = ((config.faults early late request).findSome? id).elim (.ok ()) .error ∧
    ∀ error, outcome.1 = .error error →
      request.SameBut bodyHeaders outcome.2 ∧
      (config.bodyFault request ≠ none → outcome.2 = { request with body := [] }) ∧
      (config.bodyFault request = none → config.signsBody request = true →
        outcome.2.body = .ofBytes request.body.bytes ∧
        outcome.2.headers.values .contentLength = [.ofNat request.body.bytes.length] ∧
        (outcome.2.headers.values contentDigest).map HeaderValue.bytes =
          [Base64.encode (Sha256.digest request.body.bytes)]) ∧
      (config.signsBody request = false → outcome.2 = request) := by
  intro early late outcome
  refine ⟨eq_of_faultOf (config.faultOf_sign provider request), fun error failed => ?_⟩
  have left : outcome.2 = if config.bodyFault request = none then config.ready request
      else { request with body := [] } := config.sign_of_error request failed
  cases read : config.bodyFault request with
  | some fault =>
    rw [read, if_neg (Option.some_ne_none fault)] at left
    have withBody : config.signsBody request ≠ false := by
      intro withoutBody
      rw [bodyFault, withoutBody] at read
      cases read
    rw [left]
    exact ⟨⟨rfl, rfl, fun _ _ => rfl⟩, fun _ => rfl, nofun, fun same => absurd same withBody⟩
  | none =>
    rw [read, if_pos rfl] at left
    rw [left]
    refine ⟨config.sameBut_ready request, fun same => absurd rfl same, ?_, ?_⟩
    · intro _ withBody
      refine ⟨?_, config.values_ready request (by decide) withBody, ?_⟩
      · rw [ready, if_pos withBody]
      · rw [config.values_ready request (by decide) withBody]
        rfl
    · intro withoutBody
      rw [ready, withoutBody]
      rfl

/-- Of two frames that cannot be read and a provider that is not there, the first frame counts. -/
theorem Config.sign_eq_first_fault_unreadable :
    let config : Config := {}
    let request : Request :=
      { method := .post, uri := .originForm .root, headers := .empty
        body := [.data [123], .failure "reset", .pending, .failure "closed"] }
    config.sign none none request = (.error (.bodyRead "reset"), { request with body := [] }) := by
  intro config request
  obtain ⟨outcome, leaves⟩ := config.sign_eq_first_fault none request
  have failed : (config.sign none none request).1 = .error (.bodyRead "reset") := outcome
  obtain ⟨-, lost, -⟩ := leaves _ failed
  have unreadable : config.bodyFault request ≠ none := by decide +kernel
  exact Prod.ext failed (lost unreadable)

end Signing

end RequestSigning
