import RequestSigning.Proofs.Rsa.Smallest
import RequestSigning.Proofs.Signing.Success
set_option autoImplicit false

namespace RequestSigning

open Http Signing

/-- A configuration with names that can be signed, the authorization header not among them, and
a standard predicate. -/
structure Signing.Config.IsSound (config : Config) : Prop where
  signable : ∀ name ∈ config.genericNames ++ config.bodyNames, IsSignable name
  apart : ∀ name ∈ config.genericNames ++ config.bodyNames,
    lowercase name ≠ HeaderName.authorization.text
  predicate : config.predicate.IsStandard

namespace Signing.Config.IsSound

theorem default : IsSound {} :=
  ⟨by decide, by decide, .inl rfl⟩

theorem delegation : Config.delegation.IsSound :=
  ⟨by decide, by decide, .inl rfl⟩

theorem withoutBody {config : Config} (sound : config.IsSound) : config.withoutBody.IsSound :=
  ⟨sound.signable, sound.apart, .inr rfl⟩

variable {config : Config}

theorem mem_of_mem_names {withBody : Bool} {name : String} (listed : name ∈ config.names withBody) :
    name ∈ config.genericNames ++ config.bodyNames := by
  rw [Config.names, signedNames] at listed
  cases withBody with
  | false => simpa using Or.inl (by simpa using listed)
  | true => exact listed

theorem signable_names (sound : config.IsSound) (withBody : Bool) :
    ∀ name ∈ config.names withBody, IsSignable name :=
  fun name listed => sound.signable name (mem_of_mem_names listed)

theorem words_names (sound : config.IsSound) (withBody : Bool) :
    words (" ".intercalate ((config.names withBody).map lowercase)) =
      (config.names withBody).map lowercase := by
  apply words_intercalate
  · intro word inside
    obtain ⟨name, listed, rfl⟩ := List.mem_map.mp inside
    exact (sound.signable_names withBody name listed).space_not_mem
  · intro word inside
    obtain ⟨name, listed, rfl⟩ := List.mem_map.mp inside
    exact (sound.signable_names withBody name listed).lowercase_ne_empty

/-- The authorization header is no part of what is signed. -/
theorem signingString_authorized (sound : config.IsSound) (withBody : Bool) (request : Request)
    (value : HeaderValue) :
    Signing.signingString
        { request with headers := request.headers.insert .authorization value }
        (config.names withBody) =
      Signing.signingString request (config.names withBody) := by
  have same : request.SameBut [.authorization]
      { request with headers := request.headers.insert .authorization value } :=
    .insert List.mem_cons_self value request
  apply signingString_of_sameBut same (by decide)
  intro name listed header inside
  rw [List.mem_singleton] at inside
  rw [inside]
  exact (sound.apart name (mem_of_mem_names listed)).symm

end Signing.Config.IsSound

/-- The form of the authorization header. -/
def Signing.authorizationText (names keyId signature : String) : String :=
  "Signature version=\"1\",headers=\"" ++ names ++ "\",keyId=\"" ++ keyId ++
    "\",algorithm=\"rsa-sha256\",signature=\"" ++ signature ++ "\""

/-- What a request that was signed shows to whoever knows the public key: the names of its
authorization header say which text to make of it, and the signature is one of that text. -/
structure Signing.Config.Verifies (config : Config) (request after : Request)
    (key : Rsa.PublicKey) (keyId names signature : String) (bytes : Bytes) : Prop where
  header : (after.headers.values .authorization).map HeaderValue.bytes =
    [Bytes.ofString (authorizationText names keyId signature)]
  listed : words names = (config.genericNames ++
    if config.predicate.holds request.method request.headers then config.bodyNames
    else []).map lowercase
  decoded : Base64.decode (Bytes.ofString signature) = .ok bytes
  verified : key.verify (Bytes.ofString (Signing.signingString after (words names))) bytes = true
  rebuilt : config.signingString after = Signing.signingString after (words names)

/-- The text is made in the middle of signing, and every later write leaves it as it is: each
signed request can be verified from what it has become. A provider may answer differently
when it is asked for the key id, after it was asked for the key. -/
theorem Signing.Config.verifies_of_sign (config : Config) (sound : config.IsSound)
    (early late : Option KeyProvider) (request after : Request)
    (signed : config.sign early late request = (.ok (), after)) :
    ∃ provider key again keyId names signature bytes,
      early = some provider ∧ provider.privateKey = .ok key ∧
      late = some again ∧ again.keyId = .ok keyId ∧
      config.Verifies request after key.publicKey keyId names signature bytes := by
  obtain ⟨provider, key, again, keyId, provided, keyAnswer, providedAgain, idAnswer,
    prepared, value, bytes, preparedSame, rfl, written, verified⟩ :=
    Config.isSignedBy_of_sign signed
  have withBody : config.signsBody
      { prepared with headers := prepared.headers.insert .authorization value } =
        config.signsBody request := by
    have authorizedSame : prepared.SameBut [.authorization]
        { prepared with headers := prepared.headers.insert .authorization value } :=
      .insert List.mem_cons_self value prepared
    rw [signsBody_of_sameBut sound.predicate authorizedSame (by decide),
      signsBody_of_sameBut sound.predicate preparedSame (by decide)]
  generalize held : config.signsBody request = signsBody at *
  have rebuilt : Signing.signingString
      { prepared with headers := prepared.headers.insert .authorization value }
      (words (" ".intercalate ((config.names signsBody).map lowercase))) =
        Signing.signingString prepared (config.names signsBody) := by
    rw [sound.words_names, signingString_lowercase, sound.signingString_authorized]
  refine ⟨provider, key, again, keyId, " ".intercalate ((config.names signsBody).map lowercase),
    (Base64.encode bytes).toStringLossy, bytes, provided, keyAnswer, providedAgain, idAnswer, ?_⟩
  constructor
  case header =>
    rw [Headers.values_insert, if_pos rfl, List.map_singleton, written, Authorization.text_eq]
    rfl
  case listed =>
    rw [← held]
    exact sound.words_names _
  case decoded => exact decode_ofString_encode bytes
  case verified =>
    rw [rebuilt]
    exact verified
  case rebuilt => rw [rebuilt, Config.signingString, withBody, sound.signingString_authorized]

set_option maxRecDepth 100000 in
/-- A body of two pieces, names in any case, an old authorization, and credentials that are
replaced between the key and the key id. -/
theorem Signing.Config.verifies_of_sign_post :
    let config : Config := { genericNames := ["(Request-Target)"], bodyNames := ["Content-Length"] }
    let early : KeyProvider := ⟨.ok .smallest, .ok "ocid1.tenancy/ocid1.user/fp", 0⟩
    let late : KeyProvider := ⟨.error (.keyUnavailable .noPrivateKey), .ok "ST$token", 0⟩
    let request : Request :=
      { method := .post
        uri := .originForm .root
        headers := Headers.empty.append .authorization (.ofNat 1)
        body := [.data [123], .pending, .data [125]] }
    config.IsSound ∧ ∃ after names signature bytes,
      config.sign (some early) (some late) request = (.ok (), after) ∧
      config.Verifies request after Rsa.PrivateKey.smallest.publicKey "ST$token" names signature
        bytes := by
  intro config early late request
  have sound : config.IsSound := ⟨by decide, by decide, .inl rfl⟩
  have prepared : (config.prepare request).1 = .ok ["(Request-Target)", "Content-Length"] := by
    decide +kernel
  obtain ⟨after, signed⟩ := config.exists_sign request early late prepared rfl
    Rsa.PrivateKey.exists_sign_smallest rfl (by decide +kernel)
  obtain ⟨provider, key, again, keyId, names, signature, bytes, provided, keyAnswer,
    providedAgain, idAnswer, verifies⟩ :=
    config.verifies_of_sign sound (some early) (some late) request after signed
  cases provided
  cases keyAnswer
  cases providedAgain
  cases idAnswer
  exact ⟨sound, after, names, signature, bytes, signed, verifies⟩

end RequestSigning
