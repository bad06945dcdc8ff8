import RequestSigning.Proofs.Http.Body
import RequestSigning.Proofs.Http.Header
import RequestSigning.Proofs.Signing.Verification
set_option autoImplicit false

namespace RequestSigning.Signing

open Http

/-- Attempts to sign one request, one after another, with the result of each. Every attempt has
answers of its own to the questions for the key and for the key id. -/
def Config.signMany (config : Config) :
    List (Option KeyProvider × Option KeyProvider) → Request → List (Except Error Unit) × Request
  | [], request => ([], request)
  | (early, late) :: attempts, request =>
    let (result, request) := config.sign early late request
    let (results, request) := config.signMany attempts request
    (result :: results, request)

/-- The body could not be read, and is lost. -/
def losesBody : Except Error Unit → Bool
  | .error (.bodyRead _) => true
  | _ => false

/-- The request without its authorization. -/
def unauthorized (request : Request) : Request :=
  { request with headers := request.headers.erase .authorization }

section authorization

variable {left right : Request}

theorem unauthorized_insert (request : Request) (value : HeaderValue) :
    unauthorized { request with headers := request.headers.insert .authorization value } =
      unauthorized request := by
  simp only [unauthorized, Headers.erase_insert_self]

theorem sameBut_of_unauthorized (same : unauthorized left = unauthorized right) :
    right.SameBut [.authorization] left where
  method := by
    have method := congrArg Request.method same
    exact method
  uri := by
    have uri := congrArg Request.uri same
    exact uri
  values name outside := by
    have different : HeaderName.authorization ≠ name := fun here =>
      outside (List.mem_singleton.mpr here.symm)
    have values := congrArg (fun request : Request => request.headers.values name) same
    simpa only [unauthorized, Headers.values_erase, different, ↓reduceIte] using values

/-- An older authorization is replaced. -/
theorem insert_congr (same : unauthorized left = unauthorized right) (value : HeaderValue) :
    ({ left with headers := left.headers.insert .authorization value } : Request) =
      { right with headers := right.headers.insert .authorization value } := by
  have replaced (request : Request) :
      ({ request with headers := request.headers.insert .authorization value } : Request) =
        { unauthorized request with
          headers := (unauthorized request).headers.insert .authorization value } := by
    simp only [unauthorized, Headers.insert_erase_self]
  rw [replaced left, replaced right, same]

theorem authorize_congr (same : unauthorized left = unauthorized right)
    (provider : Option KeyProvider) (names : List String) (signature : Bytes) :
    authorize provider names signature left = authorize provider names signature right := by
  cases provider with
  | none => rfl
  | some answers =>
    simp only [authorize, bind, Except.bind]
    cases answers.keyId with
    | error error => dsimp only
    | ok keyId =>
      dsimp only
      generalize HeaderValue.ofText? _ = written
      cases written with
      | none => rfl
      | some value => exact congrArg Except.ok (insert_congr same value)

theorem unauthorized_of_authorize {provider : Option KeyProvider} {names : List String}
    {signature : Bytes} (authorized : authorize provider names signature left = .ok right) :
    unauthorized right = unauthorized left := by
  obtain ⟨_, _, value, -, -, -, rfl⟩ := authorize_eq_ok authorized
  exact unauthorized_insert left value

end authorization

section preparing

variable {config : Config} {request prepared left right : Request} {names : List String}

/-- A body that was put back in one piece is read and put back the same way. -/
theorem installBodyDigest_again (installed : installBodyDigest request = (.ok (), prepared)) :
    installBodyDigest prepared = (.ok (), prepared) := by
  obtain ⟨bytes, -, rfl⟩ := installBodyDigest_eq_ok installed
  rw [installBodyDigest_of_ok (Body.collect_ofBytes bytes)]
  have different : HeaderName.contentLength ≠ contentDigest := by decide
  simp only [Headers.insert_insert_again different]

theorem installBodyDigest_congr (same : unauthorized left = unauthorized right) :
    (installBodyDigest left).1 = (installBodyDigest right).1 ∧
      unauthorized (installBodyDigest left).2 = unauthorized (installBodyDigest right).2 := by
  have body : left.body = right.body := by
    have body := congrArg Request.body same
    exact body
  cases collected : left.body.collect with
  | error text =>
    rw [installBodyDigest_of_error collected, installBodyDigest_of_error (body ▸ collected)]
    refine ⟨rfl, ?_⟩
    have emptied := congrArg (fun request : Request => { request with body := [] }) same
    exact emptied
  | ok bytes =>
    rw [installBodyDigest_of_ok collected, installBodyDigest_of_ok (body ▸ collected)]
    refine ⟨rfl, ?_⟩
    have length : HeaderName.contentLength ≠ .authorization := by decide
    have digest : contentDigest ≠ .authorization := by decide
    have written := congrArg (fun request : Request =>
      { request with
        headers := (request.headers.insert .contentLength (.ofNat bytes.length)).insert
          contentDigest (digestText bytes)
        body := Body.ofBytes bytes }) same
    simpa only [unauthorized, Headers.erase_insert_of_ne length,
      Headers.erase_insert_of_ne digest] using written

theorem Config.prepare_eq_error {error : Error}
    (failed : config.prepare request = (.error error, prepared)) :
    losesBody (.error error) = true := by
  rw [Config.prepare] at failed
  split at failed
  · cases collected : request.body.collect with
    | error text =>
      rw [installBodyDigest_of_error collected] at failed
      cases failed
      rfl
    | ok bytes =>
      rw [installBodyDigest_of_ok collected] at failed
      cases failed
  · cases failed

variable (standard : config.predicate.IsStandard)

include standard

theorem Config.prepare_congr (same : unauthorized left = unauthorized right) :
    (config.prepare left).1 = (config.prepare right).1 ∧
      unauthorized (config.prepare left).2 = unauthorized (config.prepare right).2 := by
  have withBody : config.signsBody left = config.signsBody right :=
    signsBody_of_sameBut standard (sameBut_of_unauthorized same) (by decide)
  obtain ⟨result, alike⟩ := installBodyDigest_congr same
  rw [Config.prepare, Config.prepare, withBody]
  split
  · cases installed : installBodyDigest left with | mk outcome prepared
    cases installedRight : installBodyDigest right with | mk outcomeRight preparedRight
    rw [installed, installedRight] at result alike
    cases result
    cases outcome with
    | error error => exact ⟨rfl, alike⟩
    | ok _ => exact ⟨rfl, alike⟩
  · exact ⟨rfl, same⟩

/-- A request that is prepared stays as it is. -/
theorem Config.prepare_again (prepare : config.prepare request = (.ok names, prepared)) :
    config.prepare prepared = (.ok names, prepared) := by
  have withBody : config.signsBody prepared = config.signsBody request :=
    signsBody_of_sameBut standard (Config.prepare_eq_ok prepare).2 (by decide)
  rw [Config.prepare] at prepare ⊢
  rw [withBody]
  split at prepare
  · rename_i held
    split at prepare
    · cases prepare
    · rename_i installed
      cases prepare
      rw [if_pos held, installBodyDigest_again installed]
  · rename_i held
    cases prepare
    rw [if_neg held]

end preparing

/-- What signing does with a request that is prepared. -/
def complete (early late : Option KeyProvider) (names : List String) (request : Request) :
    Except Error Unit × Request :=
  match computeSignature early (signingString request names) with
  | .error error => (.error error, request)
  | .ok signature =>
    match authorize late names signature request with
    | .error error => (.error error, request)
    | .ok request => (.ok (), request)

section completing

variable {config : Config} {request prepared left right : Request} {names : List String}
variable {early late : Option KeyProvider}

theorem Config.sign_of_prepare_eq_ok (preparing : config.prepare request = (.ok names, prepared)) :
    config.sign early late request = complete early late names prepared := by
  rw [Config.sign, preparing]
  rfl

theorem Config.sign_of_prepare_eq_error {error : Error}
    (preparing : config.prepare request = (.error error, prepared)) :
    config.sign early late request = (.error error, prepared) := by
  rw [Config.sign, preparing]

theorem unauthorized_complete (early late : Option KeyProvider) (names : List String)
    (request : Request) :
    unauthorized (complete early late names request).2 = unauthorized request := by
  rw [complete]
  split
  · rfl
  · rename_i signature _
    cases authorized : authorize late names signature request with
    | error error => rfl
    | ok after => exact unauthorized_of_authorize authorized

theorem complete_congr (same : unauthorized left = unauthorized right)
    (apart : ∀ name ∈ names, lowercase name ≠ HeaderName.authorization.text) :
    (complete early late names left).1 = (complete early late names right).1 ∧
      ((complete early late names left).1 = .ok () →
        complete early late names left = complete early late names right) := by
  have text : signingString left names = signingString right names := by
    apply signingString_of_sameBut (sameBut_of_unauthorized same) (by decide)
    intro name listed header inside
    rw [List.mem_singleton.mp inside]
    exact (apart name listed).symm
  rw [complete, complete, text]
  cases computeSignature early (signingString right names) with
  | error error => exact ⟨rfl, fun success => by cases success⟩
  | ok signature =>
    dsimp only
    rw [authorize_congr same]
    cases authorize late names signature right with
    | error error => exact ⟨rfl, fun success => by cases success⟩
    | ok after => exact ⟨rfl, fun _ => rfl⟩

/-- No question to the provider is answered with a body that could not be read. -/
def sparesBody : Option KeyProvider → Bool
  | none => true
  | some provider =>
    !losesBody (provider.privateKey.map fun _ => ()) && !losesBody (provider.keyId.map fun _ => ())

theorem losesBody_computeSignature (spares : sparesBody early = true) {text : String}
    {error : Error} (failed : computeSignature early text = .error error) :
    losesBody (.error error) = false := by
  cases early with
  | none =>
    cases failed
    rfl
  | some provider =>
    rw [computeSignature] at failed
    simp only [sparesBody, Bool.and_eq_true, Bool.not_eq_true'] at spares
    cases answer : provider.privateKey with
    | error error =>
      rw [answer] at spares failed
      cases failed
      exact spares.1
    | ok key =>
      rw [answer] at failed
      cases signed : key.sign (Bytes.ofString text) with
      | error fault =>
        simp only [bind, Except.bind, signed, Except.mapError] at failed
        cases failed
        rfl
      | ok signature =>
        simp only [bind, Except.bind, signed, Except.mapError] at failed
        cases failed

theorem losesBody_authorize (spares : sparesBody late = true) {signature : Bytes} {error : Error}
    (failed : authorize late names signature request = .error error) :
    losesBody (.error error) = false := by
  cases late with
  | none =>
    cases failed
    rfl
  | some provider =>
    rw [authorize] at failed
    simp only [sparesBody, Bool.and_eq_true, Bool.not_eq_true'] at spares
    cases answer : provider.keyId with
    | error error =>
      rw [answer] at spares failed
      cases failed
      exact spares.2
    | ok keyId =>
      simp only [answer, bind, Except.bind] at failed
      split at failed
      · cases failed
      · cases failed
        rfl

/-- Once the request is prepared, nothing but the provider can speak of the body. -/
theorem losesBody_complete (first : sparesBody early = true) (second : sparesBody late = true) :
    losesBody (complete early late names request).1 = false := by
  rw [complete]
  split
  · rename_i failed
    exact losesBody_computeSignature first failed
  · split
    · rename_i failed
      exact losesBody_authorize second failed
    · rfl

end completing

/-- Preparing `left` settles the same names and the same request as preparing `request` does,
but for an authorization. -/
structure Config.Leftover (config : Config) (request left : Request) : Prop where
  names : (config.prepare left).1 = (config.prepare request).1
  rest : unauthorized (config.prepare left).2 = unauthorized (config.prepare request).2

section repetition

variable {config : Config} {request left : Request}

theorem Config.Leftover.refl (config : Config) (request : Request) :
    config.Leftover request request :=
  ⟨rfl, rfl⟩

/-- An attempt that could read the body leaves behind what it was given. -/
theorem Config.Leftover.sign (leftover : config.Leftover request left)
    (standard : config.predicate.IsStandard) (early late : Option KeyProvider)
    (readable : losesBody (config.sign early late left).1 = false) :
    config.Leftover request (config.sign early late left).2 := by
  cases preparing : config.prepare left with | mk outcome prepared
  cases outcome with
  | error error =>
    rw [Config.sign_of_prepare_eq_error preparing, Config.prepare_eq_error preparing] at readable
    cases readable
  | ok names =>
    have kept := unauthorized_complete early late names prepared
    rw [← Config.sign_of_prepare_eq_ok preparing] at kept
    have again := Config.prepare_congr standard kept
    rw [Config.prepare_again standard preparing] at again
    have listed := leftover.names
    have rest := leftover.rest
    rw [preparing] at listed rest
    exact ⟨again.1.trans listed, again.2.trans rest⟩

theorem Config.Leftover.signMany (standard : config.predicate.IsStandard)
    (attempts : List (Option KeyProvider × Option KeyProvider))
    (leftover : config.Leftover request left)
    (readable : ∀ result ∈ (config.signMany attempts left).1, losesBody result = false) :
    config.Leftover request (config.signMany attempts left).2 := by
  induction attempts generalizing left with
  | nil => exact leftover
  | cons attempt attempts ih =>
    obtain ⟨early, late⟩ := attempt
    simp only [Config.signMany, List.forall_mem_cons] at readable ⊢
    exact ih (leftover.sign standard early late readable.1) readable.2

/-- The body of a request that can be prepared is never lost. -/
theorem Config.losesBody_signMany (standard : config.predicate.IsStandard)
    (attempts : List (Option KeyProvider × Option KeyProvider))
    (leftover : config.Leftover request left) {names : List String}
    (prepared : (config.prepare request).1 = .ok names)
    (spares : ∀ attempt ∈ attempts, sparesBody attempt.1 = true ∧ sparesBody attempt.2 = true) :
    ∀ result ∈ (config.signMany attempts left).1, losesBody result = false := by
  induction attempts generalizing left with
  | nil => exact List.forall_mem_nil _
  | cons attempt attempts ih =>
    obtain ⟨early, late⟩ := attempt
    obtain ⟨here, later⟩ := List.forall_mem_cons.mp spares
    have kept : losesBody (config.sign early late left).1 = false := by
      have listed := leftover.names.trans prepared
      cases preparing : config.prepare left with | mk outcome ready
      rw [preparing] at listed
      cases listed
      rw [Config.sign_of_prepare_eq_ok preparing]
      exact losesBody_complete here.1 here.2
    simp only [Config.signMany, List.forall_mem_cons]
    exact ⟨kept, ih (leftover.sign standard early late kept) later⟩

end repetition

/-- Attempts that could read the body leave no trace: what comes of the next one, and the
request that it signs, are those of signing the request for the first time. -/
theorem Config.sign_after_signMany (config : Config) (standard : config.predicate.IsStandard)
    (apart : ∀ name ∈ config.genericNames ++ config.bodyNames,
      lowercase name ≠ HeaderName.authorization.text)
    (attempts : List (Option KeyProvider × Option KeyProvider)) (early late : Option KeyProvider)
    (request : Request)
    (readable : ∀ result ∈ (config.signMany attempts request).1, losesBody result = false) :
    let last := config.sign early late (config.signMany attempts request).2
    let once := config.sign early late request
    last.1 = once.1 ∧ (last.1 = .ok () → last = once) := by
  intro last once
  have leftover := Config.Leftover.signMany standard attempts (.refl config request) readable
  have listed := leftover.names
  have rest := leftover.rest
  cases preparing : config.prepare (config.signMany attempts request).2 with | mk outcome prepared
  cases preparingOnce : config.prepare request with | mk outcomeOnce preparedOnce
  rw [preparing, preparingOnce] at listed rest
  cases listed
  cases outcome with
  | error error =>
    simp only [last, once, Config.sign_of_prepare_eq_error preparing,
      Config.sign_of_prepare_eq_error preparingOnce]
    exact ⟨trivial, fun success => by cases success⟩
  | ok names =>
    simp only [last, once, Config.sign_of_prepare_eq_ok preparing,
      Config.sign_of_prepare_eq_ok preparingOnce]
    apply complete_congr rest
    obtain ⟨rfl, -⟩ := Config.prepare_eq_ok preparingOnce
    exact fun name listed => apart name (Config.IsSound.mem_of_mem_names listed)

/-- Without a provider, with one whose key id fails, with one that signs, and at last with other
credentials. -/
theorem Config.sign_after_signMany_refreshed :
    let config : Config := {}
    let stale : KeyProvider := ⟨.ok .smallest, .error (.keyUnavailable .noPrivateKey), 0⟩
    let first : KeyProvider := ⟨.ok .smallest, .ok "ST$first", 0⟩
    let fresh : KeyProvider := ⟨.ok .smallest, .ok "ST$fresh", 0⟩
    let request : Request :=
      { method := .post, uri := .originForm .root, headers := .empty
        body := [.data [123], .pending, .data [125]] }
    let attempts := [(none, none), (some stale, some stale), (some first, some first)]
    config.predicate.IsStandard ∧
      (∀ name ∈ config.genericNames ++ config.bodyNames,
        lowercase name ≠ HeaderName.authorization.text) ∧
      (∀ result ∈ (config.signMany attempts request).1, losesBody result = false) ∧
      ∃ after,
        config.sign (some fresh) (some fresh) (config.signMany attempts request).2 =
          (.ok (), after) ∧
        config.sign (some fresh) (some fresh) request = (.ok (), after) := by
  intro config stale first fresh request attempts
  have standard : config.predicate.IsStandard := .inl rfl
  have apart : ∀ name ∈ config.genericNames ++ config.bodyNames,
      lowercase name ≠ HeaderName.authorization.text := by decide
  have prepared : (config.prepare request).1 =
      .ok (config.names true) := by decide +kernel
  have readable : ∀ result ∈ (config.signMany attempts request).1, losesBody result = false := by
    apply Config.losesBody_signMany standard attempts (.refl config request) prepared
    decide
  obtain ⟨after, signed⟩ := config.exists_sign request fresh fresh prepared rfl
    Rsa.PrivateKey.exists_sign_smallest rfl (by decide +kernel)
  obtain ⟨sameResult, sameRequest⟩ :=
    config.sign_after_signMany standard apart attempts (some fresh) (some fresh) request readable
  rw [signed] at sameResult sameRequest
  exact ⟨standard, apart, readable, after, sameRequest sameResult, signed⟩

end RequestSigning.Signing
