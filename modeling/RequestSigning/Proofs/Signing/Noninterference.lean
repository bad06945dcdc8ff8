import RequestSigning.Proofs.Http.Essentials
import RequestSigning.Proofs.Signing.Failure
set_option autoImplicit false

namespace RequestSigning.Signing

open Http

/-- Two requests that differ only in what no signature says: in the scheme, in what precedes the
host, in the fragment, in headers that are not listed or are written anew, in the later values of
a header, and in how the body is cut into frames. -/
structure Config.Alike (config : Config) (leftText rightText : Bytes) (left right : Request) :
    Prop where
  method : left.method = right.method
  readLeft : Uri.parse leftText = .ok left.uri
  readRight : Uri.parse rightText = .ok right.uri
  essentials : Uri.essentials leftText = Uri.essentials rightText
  marker : left.headers.get? bodyMarker = right.headers.get? bodyMarker
  headers : ∀ name ∈ config.names (config.signsBody left), ∀ header : HeaderName,
    header.text = lowercase name →
    ¬ (header = .host ∧ left.uri.host?.isSome = true) →
    ¬ (header ∈ bodyHeaders ∧ config.signsBody left = true) →
    left.headers.get? header = right.headers.get? header
  body : config.signsBody left = true →
    left.body.failures = [] ∧ right.body.failures = [] ∧ left.body.bytes = right.body.bytes

theorem authorize_eq_map (provider : Option KeyProvider) (names : List String) (signature : Bytes) :
    ∃ written : Except Error HeaderValue, ∀ request : Request,
      authorize provider names signature request =
        written.map fun value => { request with headers := request.headers.insert .authorization value } := by
  cases provider with
  | none => exact ⟨.error (.keyUnavailable .noProvider), fun _ => rfl⟩
  | some answers =>
    cases asked : answers.keyId with
    | error error =>
      refine ⟨.error error, fun request => ?_⟩
      simp only [authorize, asked]
      rfl
    | ok keyId =>
      cases written : HeaderValue.ofText?
          (Authorization.text ⟨names.map lowercase, keyId, signature⟩) with
      | none =>
        refine ⟨.error (.invalidHeader Error.headerValueText), fun request => ?_⟩
        simp only [authorize, asked, bind, Except.bind, written]
        rfl
      | some value =>
        refine ⟨.ok value, fun request => ?_⟩
        simp only [authorize, asked, bind, Except.bind, written]
        rfl

/-- What comes of a request that is prepared depends on the text that is signed. -/
theorem complete_of_signingString {left right : Request} {names : List String}
    (same : signingString left names = signingString right names)
    (early late : Option KeyProvider) :
    (complete early late names left).1 = (complete early late names right).1 ∧
      ((complete early late names left).1 = .ok () →
        ∃ value, (complete early late names left).2.headers.values .authorization = [value] ∧
          (complete early late names right).2.headers.values .authorization = [value]) := by
  rw [complete, complete, same]
  cases computeSignature early (signingString right names) with
  | error error => exact ⟨rfl, fun success => by cases success⟩
  | ok signature =>
    obtain ⟨written, authorized⟩ := authorize_eq_map late names signature
    dsimp only
    rw [authorized, authorized]
    cases written with
    | error error => exact ⟨rfl, fun success => by cases success⟩
    | ok value => exact ⟨rfl, fun _ => ⟨value, by simp [Except.map], by simp [Except.map]⟩⟩

namespace Config.Alike

variable {config : Config} {leftText rightText : Bytes} {left right : Request}

theorem signsBody (alike : config.Alike leftText rightText left right)
    (standard : config.predicate.IsStandard) : config.signsBody left = config.signsBody right := by
  rw [Config.signsBody, Config.signsBody, ← alike.method]
  exact standard.holds_congr _ alike.marker

theorem bodyFault (alike : config.Alike leftText rightText left right)
    (standard : config.predicate.IsStandard) :
    config.bodyFault left = none ∧ config.bodyFault right = none := by
  rw [Config.bodyFault, Config.bodyFault, ← alike.signsBody standard]
  split
  · rename_i withBody
    obtain ⟨readableLeft, readableRight, -⟩ := alike.body withBody
    rw [readableLeft, readableRight]
    exact ⟨rfl, rfl⟩
  · exact ⟨rfl, rfl⟩

theorem get?_ready (alike : config.Alike leftText rightText left right)
    (standard : config.predicate.IsStandard) {name : String}
    (listed : name ∈ config.names (config.signsBody left)) {header : HeaderName}
    (named : header.text = lowercase name)
    (unanswered : ¬ (header = .host ∧ left.uri.host?.isSome = true)) :
    (config.ready left).headers.get? header = (config.ready right).headers.get? header := by
  by_cases inside : header ∈ bodyHeaders
  · by_cases withBody : config.signsBody left = true
    · obtain ⟨-, -, sameBytes⟩ := alike.body withBody
      rw [Headers.get?, Headers.get?, config.values_ready left inside withBody,
        config.values_ready right inside (alike.signsBody standard ▸ withBody), sameBytes]
    · have withoutBody : config.signsBody right ≠ true := alike.signsBody standard ▸ withBody
      rw [Config.ready, Config.ready, if_neg withBody, if_neg withoutBody]
      exact alike.headers name listed header named unanswered fun written => withBody written.2
  · rw [(config.sameBut_ready left).get? inside, (config.sameBut_ready right).get? inside]
    exact alike.headers name listed header named unanswered fun written => inside written.1

theorem hostText (alike : config.Alike leftText rightText left right)
    (standard : config.predicate.IsStandard) {name : String}
    (listed : name ∈ config.names (config.signsBody left))
    (named : lowercase name = HeaderName.host.text) :
    Signing.hostText left.uri (config.ready left).headers =
      Signing.hostText right.uri (config.ready right).headers := by
  obtain ⟨host, port⟩ := (Uri.tells_of_parse alike.readLeft).authority
    (Uri.tells_of_parse alike.readRight) alike.essentials
  rw [Signing.hostText, Signing.hostText, ← host, ← port]
  cases answered : left.uri.host? with
  | some host => rfl
  | none =>
    have unanswered : ¬ (HeaderName.host = .host ∧ left.uri.host?.isSome = true) := by
      simp [answered]
    dsimp only
    rw [headerText, headerText, alike.get?_ready standard listed named.symm unanswered]

theorem requestTarget (alike : config.Alike leftText rightText left right) :
    Signing.requestTarget left.method left.uri = Signing.requestTarget right.method right.uri := by
  have target := (Uri.tells_of_parse alike.readLeft).target (Uri.tells_of_parse alike.readRight)
    alike.essentials
  rw [requestTarget_eq, requestTarget_eq, alike.method, target]

theorem nameValue (alike : config.Alike leftText rightText left right)
    (standard : config.predicate.IsStandard) {name : String}
    (listed : name ∈ config.names (config.signsBody left)) :
    Signing.nameValue (config.ready left) (lowercase name) =
      Signing.nameValue (config.ready right) (lowercase name) := by
  have sameLeft := config.sameBut_ready left
  have sameRight := config.sameBut_ready right
  rw [Signing.nameValue, Signing.nameValue, sameLeft.method, sameLeft.uri, sameRight.method,
    sameRight.uri]
  split
  · exact alike.requestTarget
  split
  · rename_i named
    exact alike.hostText standard listed named
  · rename_i otherThanHost
    cases read : HeaderName.ofText? (lowercase name) with
    | none => rfl
    | some header =>
      have named : header.text = lowercase name := by
        rw [HeaderName.text_of_ofText? read, lowercase_lowercase]
      have unanswered : ¬ (header = .host ∧ left.uri.host?.isSome = true) := by
        rintro ⟨rfl, -⟩
        exact otherThanHost named.symm
      rw [Option.map_some, Option.map_some, headerText, headerText,
        alike.get?_ready standard listed named unanswered]

theorem signingString (alike : config.Alike leftText rightText left right)
    (standard : config.predicate.IsStandard) :
    Signing.signingString (config.ready left) (config.names (config.signsBody left)) =
      Signing.signingString (config.ready right) (config.names (config.signsBody left)) := by
  apply signingString_congr rfl
  apply List.map_congr_left
  intro name listed
  exact alike.nameValue standard listed

end Config.Alike

/-- Requests that differ only in what no signature says are signed alike, by whatever provider:
both fail in the same way, or both get one and the same authorization. -/
theorem Config.sign_of_alike (config : Config) (standard : config.predicate.IsStandard)
    (early late : Option KeyProvider) (leftText rightText : Bytes) (left right : Request)
    (alike : config.Alike leftText rightText left right) :
    let signedLeft := config.sign early late left
    let signedRight := config.sign early late right
    signedLeft.1 = signedRight.1 ∧
      (signedLeft.1 = .ok () →
        ∃ value, signedLeft.2.headers.values .authorization = [value] ∧
          signedRight.2.headers.values .authorization = [value]) := by
  intro signedLeft signedRight
  obtain ⟨readableLeft, readableRight⟩ := alike.bodyFault standard
  have completesLeft : signedLeft = complete early late _ _ :=
    sign_of_prepare_eq_ok (prepare_of_readable readableLeft)
  have completesRight : signedRight = complete early late _ _ :=
    sign_of_prepare_eq_ok (prepare_of_readable readableRight)
  rw [← alike.signsBody standard] at completesRight
  rw [completesLeft, completesRight]
  exact complete_of_signingString (alike.signingString standard) early late

set_option maxRecDepth 100000 in
/-- A user who is named like a port, a second date, headers left from before, another header, and
a body in pieces. -/
theorem Config.sign_of_alike_user :
    let config : Config := {}
    let provider : KeyProvider := ⟨.ok .smallest, .ok "ST$token", 0⟩
    let target : PathAndQuery := ⟨"/x", none, by decide, by simp⟩
    let date : HeaderValue := ⟨[97], by decide⟩
    let left : Request :=
      { method := .post
        uri := .absoluteForm Uri.httpScheme ⟨"u:80@h", by decide⟩ target
        headers := ⟨[(.date, date), (.date, .ofNat 1), (.contentLength, .ofNat 2),
          (.authorization, .ofNat 3), (delegationToken, .ofNat 4)]⟩
        body := [.data [123], .pending, .data [125]] }
    let right : Request :=
      { method := .post
        uri := .absoluteForm Uri.httpsScheme ⟨"h", by decide⟩ target
        headers := ⟨[(contentDigest, .ofNat 5), (.date, date)]⟩
        body := [.trailers, .data [123, 125]] }
    config.predicate.IsStandard ∧
      config.Alike (Bytes.ofString "http://u:80@h/x#f") (Bytes.ofString "HTTPS://h/x") left right ∧
      ∃ signedLeft signedRight value,
        config.sign (some provider) (some provider) left = (.ok (), signedLeft) ∧
        config.sign (some provider) (some provider) right = (.ok (), signedRight) ∧
        signedLeft.headers.values .authorization = [value] ∧
        signedRight.headers.values .authorization = [value] := by
  intro config provider target date left right
  have standard : config.predicate.IsStandard := .inl rfl
  have alike : config.Alike (Bytes.ofString "http://u:80@h/x#f") (Bytes.ofString "HTTPS://h/x")
      left right := by
    constructor
    case method => rfl
    case readLeft => decide +kernel
    case readRight => decide +kernel
    case essentials => decide +kernel
    case marker => rfl
    case headers =>
      have each : ∀ name ∈ config.names (config.signsBody left),
          ∀ header ∈ HeaderName.ofText? (lowercase name),
          ¬ (header = .host ∧ left.uri.host?.isSome = true) →
          ¬ (header ∈ bodyHeaders ∧ config.signsBody left = true) →
          left.headers.get? header = right.headers.get? header := by
        decide +kernel
      intro name listed header named
      have read : HeaderName.ofText? (lowercase name) = some header := by
        rw [← named, header.ofText?_text]
      exact each name listed header (Option.mem_def.mpr read)
    case body => exact fun _ => ⟨rfl, rfl, rfl⟩
  have prepared : (config.prepare left).1 = .ok (config.names true) := by decide +kernel
  obtain ⟨signedLeft, signed⟩ := config.exists_sign left provider provider prepared rfl
    Rsa.PrivateKey.exists_sign_smallest rfl (by decide +kernel)
  obtain ⟨sameResult, authorized⟩ := config.sign_of_alike standard (some provider) (some provider)
    _ _ left right alike
  cases signing : config.sign (some provider) (some provider) right with | mk outcome signedRight
  rw [signed, signing] at sameResult authorized
  obtain ⟨value, valueLeft, valueRight⟩ := authorized rfl
  exact ⟨standard, alike, signedLeft, signedRight, value, signed, Prod.ext sameResult.symm rfl,
    valueLeft, valueRight⟩

end RequestSigning.Signing
