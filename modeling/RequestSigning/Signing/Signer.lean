import RequestSigning.Calendar
import RequestSigning.Signing.Authorization
import RequestSigning.Signing.BodyDigest
import RequestSigning.Signing.Canonical
import RequestSigning.Signing.Predicate
import RequestSigning.Text.Quoted
set_option autoImplicit false

namespace RequestSigning

/-- What a provider of keys answers at one moment. -/
structure KeyProvider where
  privateKey : Except Error Rsa.PrivateKey
  keyId : Except Error String
  /-- When the key counts as stale. -/
  expiration : UnixTime

namespace Signing

open Http

/-- Which names are signed, and when the body is. -/
structure Config where
  genericNames : List String := defaultGenericNames
  bodyNames : List String := defaultBodyNames
  predicate : BodyPredicate := .stateChanging

namespace Config

/-- Also signs the delegation token. -/
def delegation : Config :=
  { genericNames := defaultDelegationNames }

/-- Signs the body of marked requests only. -/
def withoutBody (config : Config) : Config :=
  { config with predicate := .explicitOnly }

def signsBody (config : Config) (request : Request) : Bool :=
  config.predicate.holds request.method request.headers

def names (config : Config) (withBody : Bool) : List String :=
  signedNames config.genericNames config.bodyNames withBody

/-- What signing would sign, for the request as it is. -/
def signingString (config : Config) (request : Request) : String :=
  Signing.signingString request (config.names (config.signsBody request))

/-- Writes the body's headers where the body is signed, and settles the names. -/
def prepare (config : Config) (request : Request) : Except Error (List String) × Request :=
  if config.signsBody request then
    match installBodyDigest request with
    | (.error error, request) => (.error error, request)
    | (.ok (), request) => (.ok (config.names true), request)
  else (.ok (config.names false), request)

end Config

/-- The signature of a text. The provider's key is asked for first. -/
def computeSignature (provider : Option KeyProvider) (text : String) : Except Error Bytes := do
  let some provider := provider | throw (.keyUnavailable .noProvider)
  let key ← provider.privateKey
  (key.sign (Bytes.ofString text)).mapError .signing

/-- Writes the authorization header, with the provider's key id in it. -/
def authorize (provider : Option KeyProvider) (names : List String) (signature : Bytes)
    (request : Request) : Except Error Request := do
  let some provider := provider | throw (.keyUnavailable .noProvider)
  let keyId ← provider.keyId
  let authorization : Authorization := ⟨names.map lowercase, keyId, signature⟩
  match HeaderValue.ofText? authorization.text with
  | some value =>
    return { request with headers := request.headers.insert .authorization value }
  | none => throw (.invalidHeader Error.headerValueText)

/-- Signs with the key that `early` answers and the key id that `late` answers, which is the
same provider asked later. Where it fails after the body's headers were written, these stay;
the authorization header is written only where nothing fails. -/
def Config.sign (config : Config) (early late : Option KeyProvider) (request : Request) :
    Except Error Unit × Request :=
  match config.prepare request with
  | (.error error, request) => (.error error, request)
  | (.ok names, request) =>
    match computeSignature early (Signing.signingString request names) with
    | .error error => (.error error, request)
    | .ok signature =>
      match authorize late names signature request with
      | .error error => (.error error, request)
      | .ok request => (.ok (), request)

end Signing

/-- Signs requests with the key of a provider, if it has one. -/
structure Signer where
  provider : Option KeyProvider
  config : Signing.Config

namespace Signer

open Http Signing

/-- When the signer's key is stale; without a provider it has been for a second. -/
def expiration (signer : Signer) (now : UnixTime) : UnixTime :=
  match signer.provider with
  | some provider => provider.expiration
  | none => now - 1

/-- Signs at one moment. -/
def sign (signer : Signer) (request : Request) : Except Error Unit × Request :=
  signer.config.sign signer.provider signer.provider request

/-- The signer as it is shown to a developer. -/
def debugText (signer : Signer) : String :=
  "RequestSigner \x7b has_key_provider: " ++ toString signer.provider.isSome ++
    ", config: SigningConfig \x7b generic_headers: " ++ Quoted.quoteList signer.config.genericNames ++
    ", body_headers: " ++ Quoted.quoteList signer.config.bodyNames ++
    ", should_hash_body: BodyHashPredicate \x7d \x7d"

end Signer

end RequestSigning
