import RequestSigning.CommandLine.Outcome
import RequestSigning.Proofs.CommandLine.Options
import RequestSigning.Proofs.CommandLine.SignedRequest
import RequestSigning.Proofs.Credential.Provider
import RequestSigning.Proofs.Credential.Reading
import RequestSigning.Proofs.Signing.Effect
set_option autoImplicit false

namespace RequestSigning.CommandLine

open Http Signing

section runs

variable {σ : Type} {network : Client → Transport σ} {surroundings : Surroundings}
variable {arguments : List String} {start : σ} {options : Options} {now : UnixTime}
variable {material : Credential.Material} {signed : SignedRequest}

/-- The steps that a run has taken: reading the options, loading the credentials, signing. -/
theorem Outcome.run_eq_signed
    (ran : (Outcome.run network surroundings arguments start).1 = .signed signed) :
    ∃ options material, Options.read surroundings.environment arguments = .ok options ∧
      (options.load network surroundings.file start).1 = .ok material ∧
      options.sign material surroundings.now = .ok signed := by
  rw [run] at ran
  cases read : Options.read surroundings.environment arguments with
  | error refusal =>
    rw [read] at ran
    cases refusal with
    | helpWanted => cases ran
    | misused fault => cases ran
  | ok options =>
    rw [read] at ran
    simp only [bind, StateT.bind] at ran
    cases loaded : options.load network surroundings.file start with | mk outcome later
    rw [loaded] at ran
    cases outcome with
    | error failure => cases ran
    | ok material =>
      dsimp only at ran
      cases result : options.sign material surroundings.now with
      | error failure =>
        rw [result] at ran
        cases ran
      | ok signed =>
        rw [result] at ran
        cases ran
        exact ⟨options, material, rfl, by rw [loaded], result⟩

/-- A run ends well where its options are read, its credentials loaded and its request signed. -/
theorem Outcome.exists_run_eq_signed {request after : Request}
    (read : Options.read surroundings.environment arguments = .ok options)
    (loaded : (options.load network surroundings.file start).1 = .ok material)
    (built : options.request surroundings.now = .ok request)
    (signing : options.config.sign (some (.ofMaterial material options.keyId))
      (some (.ofMaterial material options.keyId)) request = (.ok (), after)) :
    ∃ signed, (Outcome.run network surroundings arguments start).1 = .signed signed := by
  obtain ⟨signed, success⟩ : ∃ signed, options.sign material surroundings.now = .ok signed := by
    refine ⟨.ofRequest after (KeyProvider.ofMaterial material options.keyId).expiration, ?_⟩
    simp only [Options.sign, built, bind, Except.bind, Signer.sign, signing]
    rfl
  refine ⟨signed, ?_⟩
  cases loading : options.load network surroundings.file start with | mk outcome later
  rw [loading] at loaded
  cases loaded
  simp only [run, read, bind, StateT.bind, loading, success]
  rfl

theorem Options.sign_eq_ok (success : options.sign material now = .ok signed) :
    ∃ request after, options.request now = .ok request ∧
      options.config.sign (some (.ofMaterial material options.keyId))
        (some (.ofMaterial material options.keyId)) request = (.ok (), after) ∧
      ∃ expiration, signed = .ofRequest after expiration := by
  rw [sign] at success
  obtain ⟨request, built, success⟩ := Except.bind_eq_ok success
  refine ⟨request, ?_⟩
  dsimp only at success
  split at success
  · cases success
  · rename_i after signing
    cases success
    exact ⟨after, built, signing, _, rfl⟩

end runs

section rebuilding

variable {request received : Request}

/-- The value of a name is the same from the last value of each header where this is the first. -/
theorem nameValue_of_latest (method : received.method = request.method)
    (uri : received.uri = request.uri)
    (latest : ∀ header, received.headers.values header =
      (request.headers.values header).getLast?.toList) {name : String}
    (lower : lowercase name = name)
    (single : ∀ header : HeaderName, header.text = name →
      (header = .host → request.uri.host? = none) →
      (request.headers.values header).head? = (request.headers.values header).getLast?) :
    nameValue received name = nameValue request name := by
  have text {header : HeaderName}
      (same : (request.headers.values header).head? = (request.headers.values header).getLast?) :
      headerText received.headers header = headerText request.headers header := by
    rw [headerText, headerText, Headers.get?, Headers.get?, latest, same]
    cases (request.headers.values header).getLast? with
    | none => rfl
    | some value => rfl
  rw [nameValue, nameValue, method, uri]
  split
  · rfl
  split
  · rename_i host
    rw [hostText, hostText]
    split
    · rfl
    · rename_i absent
      exact text (single .host host.symm fun _ => absent)
  · rename_i other
    cases read : HeaderName.ofText? name with
    | none => rfl
    | some header =>
      have written := HeaderName.text_of_ofText? read
      rw [lower] at written
      have apart : header ≠ .host := by
        rintro rfl
        exact other written.symm
      exact text (single header written fun host => absurd host apart)

end rebuilding

/-- What is printed can tell what is signed: no header that is signed has a last value other than
its first (the headers of the body are written anew, and the host header counts only where the
address has no host), no path is empty, and the address is not too long. -/
structure Options.IsTold (options : Options) (request : Request) : Prop where
  single : ∀ header : HeaderName,
    header.text ∈ (options.config.names (options.config.signsBody request)).map lowercase →
      header ∉ bodyHeaders → (header = .host → request.uri.host? = none) →
      (request.headers.values header).head? = (request.headers.values header).getLast?
  path : ∀ target ∈ request.uri.target?, target.path ≠ ""
  short : (Bytes.ofString request.uri.text).length ≤ Uri.maxLength

section told

variable {options : Options} {request after : Request} {early late : Option KeyProvider}

theorem Options.text_not_mem_genericNames {header : HeaderName} (inside : header ∈ bodyHeaders) :
    header.text ∉ options.config.genericNames.map lowercase := by
  have names : options.config.genericNames = defaultGenericNames ∨
      options.config.genericNames = defaultDelegationNames := by
    simp only [config]
    cases options.profile with
    | default => exact .inl (by split <;> rfl)
    | delegation => exact .inr (by split <;> rfl)
  rcases names with names | names
  · rw [names]
    revert header
    decide
  · rw [names]
    revert header
    decide

/-- The headers of the body are signed with the body alone. -/
theorem Options.signsBody_of_mem {header : HeaderName} (inside : header ∈ bodyHeaders)
    (listed : header.text ∈
      (options.config.names (options.config.signsBody request)).map lowercase) :
    options.config.signsBody request = true := by
  cases withBody : options.config.signsBody request with
  | true => rfl
  | false =>
    rw [withBody, Config.names, signedNames, if_neg Bool.false_ne_true, List.append_nil] at listed
    exact absurd listed (text_not_mem_genericNames inside)

theorem Options.IsTold.single_of_sign (told : options.IsTold request)
    (signed : options.config.sign early late request = (.ok (), after)) {header : HeaderName}
    (listed : header.text ∈
      (options.config.names (options.config.signsBody request)).map lowercase)
    (host : header = .host → after.uri.host? = none) :
    (after.headers.values header).head? = (after.headers.values header).getLast? := by
  have same := Config.sameBut_of_sign signed
  by_cases body : header ∈ bodyHeaders
  · obtain ⟨value, values⟩ := Config.values_of_sign signed (signsBody_of_mem body listed) body
    rw [values]
    rfl
  · have outside : header ∉ HeaderName.authorization :: bodyHeaders := by
      intro inside
      rcases List.mem_cons.mp inside with rfl | inside
      · obtain ⟨name, nameListed, text⟩ := List.mem_map.mp listed
        exact options.config_isSound.apart name (Config.IsSound.mem_of_mem_names nameListed) text
      · exact body inside
    rw [same.uri] at host
    rw [same.values header outside]
    exact told.single header listed body host

theorem Options.IsTold.signingString_eq (told : options.IsTold request)
    (signed : options.config.sign early late request = (.ok (), after)) (received : Request)
    (method : received.method = after.method) (uri : received.uri = after.uri)
    (latest : ∀ header, received.headers.values header =
      (after.headers.values header).getLast?.toList) :
    signingString received
        ((options.config.names (options.config.signsBody request)).map lowercase) =
      signingString after (options.config.names (options.config.signsBody request)) := by
  rw [signingString_lowercase]
  apply signingString_congr rfl
  apply List.map_congr_left
  intro name listed
  have single (header : HeaderName) (text : header.text = lowercase name)
      (host : header = .host → after.uri.host? = none) :
      (after.headers.values header).head? = (after.headers.values header).getLast? := by
    apply told.single_of_sign signed _ host
    rw [text]
    exact List.mem_map_of_mem listed
  exact nameValue_of_latest method uri latest (lowercase_lowercase name) single

end told

/-- What a printed request shows to its receiver: the request with the body that comes with it,
and an authorization with the key id as it is, which a reader of parameters can take apart where
the key id holds no quotation mark. -/
structure SignedRequest.Shows (signed : SignedRequest) (keyId : String) (body : Body)
    (received : Request) (names signature : String) (bytes : Bytes) : Prop where
  receives : signed.received? body = some received
  header : (received.headers.values .authorization).map HeaderValue.text =
    [authorizationText names keyId signature]
  parameters : '"' ∉ keyId.toList → Authorization.parse? (authorizationText names keyId signature) =
    some [("version", "1"), ("headers", names), ("keyId", keyId), ("algorithm", "rsa-sha256"),
      ("signature", signature)]
  decoded : Base64.decode (Bytes.ofString signature) = .ok bytes

section receiving

variable {σ : Type} {network : Client → Transport σ} {surroundings : Surroundings}
variable {arguments : List String} {start : σ} {options : Options}
variable {request : Request} {signed : SignedRequest}

theorem parse?_authorizationText {names : List String} {keyId : String} {bytes : Bytes}
    (plain : ∀ name ∈ names, '"' ∉ name.toList) (quotable : '"' ∉ keyId.toList) :
    Authorization.parse? (authorizationText (" ".intercalate names) keyId
        (Base64.encode bytes).toStringLossy) =
      some [("version", "1"), ("headers", " ".intercalate names), ("keyId", keyId),
        ("algorithm", "rsa-sha256"), ("signature", (Base64.encode bytes).toStringLossy)] := by
  let authorization : Authorization := ⟨names, keyId, bytes⟩
  have together : '"' ∉ (" ".intercalate authorization.names).toList := by
    intro inside
    rcases mem_intercalate inside with space | ⟨name, listed, inside⟩
    · exact absurd space (by decide)
    · exact plain name listed inside
  have read := @Authorization.parse?_text authorization quotable together
  rw [Authorization.text_eq] at read
  exact read

/-- What a run has signed, and what its receiver has instead. -/
theorem Outcome.shows_of_run
    (ran : (Outcome.run network surroundings arguments start).1 = .signed signed)
    (read : Options.read surroundings.environment arguments = .ok options)
    (built : options.request surroundings.now = .ok request)
    (path : ∀ target ∈ request.uri.target?, target.path ≠ "")
    (short : (Bytes.ofString request.uri.text).length ≤ Uri.maxLength) (body : Body) :
    let names := options.config.names (options.config.signsBody request)
    ∃ material key after received signature bytes,
      (options.load network surroundings.file start).1 = .ok material ∧
      material.privateKey.map Credential.Loaded.value = some key ∧
      options.config.sign (some (.ofMaterial material options.keyId))
        (some (.ofMaterial material options.keyId)) request = (.ok (), after) ∧
      signed.Shows options.keyId body received (" ".intercalate (names.map lowercase)) signature
        bytes ∧
      received.method = after.method ∧ received.uri = after.uri ∧
      (∀ header, received.headers.values header =
        (after.headers.values header).getLast?.toList) ∧
      key.publicKey.verify (Bytes.ofString (signingString after names)) bytes = true := by
  intro names
  obtain ⟨others, material, readAgain, loaded, success⟩ := Outcome.run_eq_signed ran
  cases read.symm.trans readAgain
  obtain ⟨another, after, builtAgain, signing, expiration, rfl⟩ := Options.sign_eq_ok success
  cases built.symm.trans builtAgain
  obtain ⟨uriRead, texts⟩ := Options.request_eq_ok built
  have sound := options.config_isSound
  have same := Config.sameBut_of_sign signing
  obtain ⟨headers, received, latest⟩ := SignedRequest.received?_ofRequest
    (Config.areTexts_of_sign texts signing) (same.uri ▸ uriRead) (same.uri ▸ path)
    (same.uri ▸ short) expiration body
  obtain ⟨provider, key, again, keyId, value, bytes, provided, keyAnswer, providedAgain, idAnswer,
    values, written, verified⟩ := Config.IsSound.verify_of_sign sound signing
  cases provided
  cases providedAgain
  cases KeyProvider.keyId_of_ofMaterial idAnswer
  have text : value.text = authorizationText (" ".intercalate (names.map lowercase)) options.keyId
      (Base64.encode bytes).toStringLossy := by
    rw [HeaderValue.text, written, Bytes.toStringLossy_ofString, Authorization.text_eq]
    rfl
  have shows : (SignedRequest.ofRequest after expiration).Shows options.keyId body
      { after with headers, body } (" ".intercalate (names.map lowercase))
      (Base64.encode bytes).toStringLossy bytes := by
    refine ⟨received, ?_, parse?_authorizationText ?_, decode_ofString_encode bytes⟩
    · have last : headers.values .authorization = [value] := by
        rw [latest, values]
        rfl
      rw [last, List.map_singleton, text]
    · intro name listed
      obtain ⟨name, nameListed, rfl⟩ := List.mem_map.mp listed
      exact (sound.signable_names _ name nameListed).not_mem_lowercase (by decide) (by decide)
  exact ⟨material, key, after, _, _, bytes, loaded, KeyProvider.privateKey_of_ofMaterial keyAnswer,
    signing, shows, rfl, rfl, latest, verified⟩

end receiving

/-- Whoever reads what was printed can verify it, under the key that was loaded. -/
theorem Outcome.verifies_of_run {σ : Type} (network : Client → Transport σ)
    (surroundings : Surroundings) (arguments : List String) (start : σ) (options : Options)
    (request : Request) (signed : SignedRequest)
    (ran : (Outcome.run network surroundings arguments start).1 = .signed signed)
    (read : Options.read surroundings.environment arguments = .ok options)
    (built : options.request surroundings.now = .ok request)
    (told : options.IsTold request) (body : Body) :
    SignedRequest.read? (Outcome.output (.signed signed)) = some signed ∧
      ∃ material key received names signature bytes,
        (options.load network surroundings.file start).1 = .ok material ∧
        material.privateKey.map Credential.Loaded.value = some key ∧
        signed.Shows options.keyId body received names signature bytes ∧
        key.publicKey.verify (Bytes.ofString (signingString received (words names))) bytes =
          true := by
  refine ⟨SignedRequest.read?_text signed, ?_⟩
  obtain ⟨material, key, after, received, signature, bytes, loaded, loadedKey, signing, shows,
    method, uri, latest, verified⟩ := Outcome.shows_of_run ran read built told.path told.short body
  have rebuilt := told.signingString_eq signing received method uri latest
  refine ⟨material, key, received, _, signature, bytes, loaded, loadedKey, shows, ?_⟩
  rw [options.config_isSound.words_names, rebuilt]
  exact verified

/-- Files with a certificate and with the key `Rsa.PrivateKey.smallest`. -/
def Surroundings.withSmallest : Surroundings where
  environment _ := none
  file name :=
    if name = "certificate" then .ok (Credential.certificateText Credential.plainCertificate)
    else if name = "key" then .ok (Credential.keyText Credential.smallestKey)
    else .error .notFound
  now := 0

namespace Surroundings

theorem withSmallest_certificate : withSmallest.file "certificate" =
    .ok (Credential.certificateText Credential.plainCertificate) := by
  unfold withSmallest
  dsimp only
  rw [if_pos rfl]

theorem withSmallest_key : withSmallest.file "key" =
    .ok (Credential.keyText Credential.smallestKey) := by
  unfold withSmallest
  dsimp only
  rw [if_neg (by decide), if_pos rfl]

/-- The key is loaded, and a certificate with it. -/
theorem load_withSmallest {options : Options} (fromFiles : options.certificateUrl = none)
    (noUrl : options.privateKeyUrl = none)
    (certificateFile : options.certificateFile = some "certificate")
    (privateKeyFile : options.privateKeyFile = some "key") :
    ∃ material, (options.load (fun _ => Client.offline) withSmallest.file ()).1 = .ok material ∧
      (KeyProvider.ofMaterial material options.keyId).privateKey = .ok .smallest ∧
      (KeyProvider.ofMaterial material options.keyId).keyId = .ok options.keyId := by
  let certificatePem := Credential.certificateText Credential.plainCertificate
  let keyPem := Credential.keyText Credential.smallestKey
  let passphrase := options.passphrase.map Bytes.ofString
  obtain ⟨certificate, certificateRead⟩ := Credential.exists_readCertificate_plain
  have keyRead : Credential.readPrivateKey keyPem passphrase = .ok .smallest :=
    Credential.readPrivateKey_keyText (by decide +kernel) passphrase
  have source : options.source withSmallest.file =
      .ok (.fixed ⟨certificatePem, some keyPem, passphrase⟩) := by
    simp only [Options.source, fromFiles, noUrl, certificateFile, privateKeyFile, Options.readFile,
      Option.mapM_some, bind, Except.bind, Functor.map, Except.map, Except.mapError,
      withSmallest_certificate, withSmallest_key]
    rfl
  have loaded : Credential.StaticSource.load ⟨certificatePem, some keyPem, passphrase⟩ =
      .ok ⟨some ⟨certificatePem, certificate⟩, some ⟨keyPem, .smallest⟩⟩ := by
    simp only [Credential.StaticSource.load, Credential.Loaded.certificate,
      Credential.Loaded.privateKey, certificatePem, keyPem, passphrase, certificateRead, keyRead]
    rfl
  refine ⟨⟨some ⟨certificatePem, certificate⟩, some ⟨keyPem, .smallest⟩⟩, ?_, rfl, rfl⟩
  simp only [Options.load, source, Retriever.refresh, Retriever.new, Credential.Source.load, loaded]
  rfl

end Surroundings

/-- With these credentials every request is signed whose names and key id are legal. -/
theorem Outcome.exists_signed_withSmallest {arguments names : List String} {options : Options}
    {request : Request} (fromFiles : options.certificateUrl = none)
    (noUrl : options.privateKeyUrl = none)
    (certificateFile : options.certificateFile = some "certificate")
    (privateKeyFile : options.privateKeyFile = some "key")
    (read : Options.read Surroundings.withSmallest.environment arguments = .ok options)
    (built : options.request Surroundings.withSmallest.now = .ok request)
    (prepared : (options.config.prepare request).1 = .ok names)
    (legal : ∀ text ∈ options.keyId :: names.map lowercase,
      (Bytes.ofString text).all isHeaderValueByte = true) :
    ∃ signed,
      (Outcome.run (fun _ => Client.offline) .withSmallest arguments ()).1 = .signed signed := by
  obtain ⟨material, loaded, key, keyId⟩ :=
    Surroundings.load_withSmallest fromFiles noUrl certificateFile privateKeyFile
  obtain ⟨after, signing⟩ := options.config.exists_sign request _ _ prepared key
    Rsa.PrivateKey.exists_sign_smallest keyId legal
  exact Outcome.exists_run_eq_signed read loaded built signing

set_option maxRecDepth 100000 in
/-- A body, an address without a path, and a header whose last value is its first again. -/
theorem Outcome.verifies_of_run_post :
    let arguments := ["--certificate-file", "certificate", "--private-key-file", "key",
      "--key-id", "clé", "--url", "http://h", "--method", "post", "--body", "é",
      "--header", "date:a", "--header", "date:b", "--header", "Date: a"]
    let options : Options :=
      { certificateFile := some "certificate", privateKeyFile := some "key", keyId := "clé"
        method := "post", url := "http://h", headers := ["date:a", "date:b", "Date: a"]
        body := "é" }
    let request : Request :=
      { method := .post
        uri := .absoluteForm Uri.httpScheme ⟨"h", by decide⟩ .root
        headers := ((Headers.empty.append .date ⟨[97], by decide⟩).append .date
          ⟨[98], by decide⟩).append .date ⟨[97], by decide⟩
        body := [.data [0xC3, 0xA9]] }
    Options.read Surroundings.withSmallest.environment arguments = .ok options ∧
      options.request Surroundings.withSmallest.now = .ok request ∧ options.IsTold request ∧
      ∃ (signed : SignedRequest) (material : Credential.Material) (key : Rsa.PrivateKey)
        (received : Request) (names signature : String) (bytes : Bytes),
        (Outcome.run (fun _ => Client.offline) .withSmallest arguments ()).1 = .signed signed ∧
        material.privateKey.map Credential.Loaded.value = some key ∧
        signed.Shows "clé" request.body received names signature bytes ∧
        key.publicKey.verify (Bytes.ofString (signingString received (words names))) bytes =
          true := by
  intro arguments options request
  have read : Options.read Surroundings.withSmallest.environment arguments = .ok options := by
    decide +kernel
  have built : options.request Surroundings.withSmallest.now = .ok request := by decide +kernel
  have prepared : (options.config.prepare request).1 =
      .ok (options.config.names true) := by
    decide +kernel
  obtain ⟨signed, ran⟩ := Outcome.exists_signed_withSmallest rfl rfl rfl rfl read built prepared
    (by decide +kernel)
  have told : options.IsTold request := by
    refine ⟨fun header _ _ _ => ?_, by decide, by decide⟩
    by_cases here : HeaderName.date = header
    · subst here
      decide
    · simp [request, here]
  obtain ⟨-, material, key, received, names, signature, bytes, -, loadedKey, shows, verified⟩ :=
    Outcome.verifies_of_run (fun _ => Client.offline) .withSmallest arguments () options request
      signed ran read built told request.body
  exact ⟨read, built, told, signed, material, key, received, names, signature, bytes, ran,
    loadedKey, shows, verified⟩

set_option maxRecDepth 100000 in
/-- Of a header that is given twice the first value is signed and the last one is printed. -/
theorem Outcome.not_verifies_of_run_repeated :
    let arguments := ["--certificate-file", "certificate", "--private-key-file", "key",
      "--key-id", "kid", "--url", "/", "--header", "date:a", "--header", "date:b"]
    ∃ (options : Options) (signed : SignedRequest) (material : Credential.Material)
      (key : Rsa.PrivateKey) (received : Request) (names signature : String) (bytes : Bytes),
      Options.read Surroundings.withSmallest.environment arguments = .ok options ∧
      (Outcome.run (fun _ => Client.offline) .withSmallest arguments ()).1 = .signed signed ∧
      (options.load (fun _ => Client.offline) Surroundings.withSmallest.file ()).1 = .ok material ∧
      material.privateKey.map Credential.Loaded.value = some key ∧
      signed.Shows "kid" [] received names signature bytes ∧
      key.publicKey.verify (Bytes.ofString (signingString received (words names))) bytes =
        false := by
  intro arguments
  let options : Options :=
    { certificateFile := some "certificate", privateKeyFile := some "key", keyId := "kid"
      url := "/", headers := ["date:a", "date:b"] }
  let request (headers : Headers) : Request :=
    { method := .get, uri := .originForm .root, headers, body := [.data []] }
  let given : Headers :=
    (Headers.empty.append .date ⟨[97], by decide⟩).append .date ⟨[98], by decide⟩
  let last : Headers := Headers.empty.append .date ⟨[98], by decide⟩
  have read : Options.read Surroundings.withSmallest.environment arguments = .ok options := by
    decide +kernel
  have built : options.request Surroundings.withSmallest.now = .ok (request given) := by
    decide +kernel
  have prepared : (options.config.prepare (request given)).1 =
      .ok (options.config.names false) := by
    decide +kernel
  obtain ⟨signed, ran⟩ := Outcome.exists_signed_withSmallest rfl rfl rfl rfl read built prepared
    (by decide +kernel)
  have names : options.config.names (options.config.signsBody (request given)) =
      ["date", "(request-target)", "host"] := by decide +kernel
  obtain ⟨material, key, after, received, signature, bytes, loaded, loadedKey, signing, shows,
    method, uri, latest, verified⟩ :=
    Outcome.shows_of_run ran read built (by decide) (by decide) []
  rw [names] at shows verified
  have same := Config.sameBut_of_sign signing
  have apart : ∀ name ∈ ["date", "(request-target)", "host"],
      ∀ header ∈ HeaderName.authorization :: bodyHeaders, header.text ≠ lowercase name := by
    decide
  have sent : signingString after ["date", "(request-target)", "host"] =
      signingString (request given) ["date", "(request-target)", "host"] :=
    signingString_of_sameBut same (by decide) apart
  have rebuilt : signingString received ["date", "(request-target)", "host"] =
      signingString (request last) ["date", "(request-target)", "host"] := by
    have lastOnly : (request last).SameBut (.authorization :: bodyHeaders) received := by
      refine ⟨method.trans same.method, uri.trans same.uri, fun name outside => ?_⟩
      rw [latest, same.values name outside]
      by_cases here : HeaderName.date = name
      · subst here
        decide
      · simp [request, given, last, here]
    exact signingString_of_sameBut lastOnly (by decide) apart
  have listed : words (" ".intercalate (["date", "(request-target)", "host"].map lowercase)) =
      ["date", "(request-target)", "host"] := by
    decide +kernel
  have different : Sha256.digest (Bytes.ofString
      (signingString (request given) ["date", "(request-target)", "host"])) ≠
        Sha256.digest (Bytes.ofString
          (signingString (request last) ["date", "(request-target)", "host"])) := by
    decide +kernel
  refine ⟨options, signed, material, key, received, _, signature, bytes, read, ran, loaded,
    loadedKey, shows, ?_⟩
  rw [listed, rebuilt]
  rw [sent] at verified
  apply Bool.eq_false_iff.mpr
  intro again
  exact different (Rsa.PublicKey.digest_eq_of_verify verified again)

end RequestSigning.CommandLine
