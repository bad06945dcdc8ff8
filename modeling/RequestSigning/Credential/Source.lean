import RequestSigning.Credential.Material
import RequestSigning.Text.Quoted
import RequestSigning.Transport
set_option autoImplicit false

namespace RequestSigning.Credential

/-- Credentials that are part of the configuration. -/
structure StaticSource where
  certificate : Bytes
  privateKey : Option Bytes
  passphrase : Option Bytes
  deriving Repr, DecidableEq

def StaticSource.load (source : StaticSource) : Except Error Material := do
  let certificate ← Loaded.certificate source.certificate
  match source.privateKey with
  | none => return ⟨some certificate, none⟩
  | some pem => return ⟨some certificate, some (← Loaded.privateKey pem source.passphrase)⟩

/-- Credentials that are fetched. -/
structure UrlSource where
  certificateUrl : String
  privateKeyUrl : Option String
  passphrase : Option Bytes
  privateKeyUrl_nonempty : privateKeyUrl ≠ some ""
  deriving DecidableEq

namespace UrlSource

/-- An empty address of the key counts as none. -/
def new (certificateUrl : String) (privateKeyUrl : Option String) (passphrase : Option Bytes) :
    UrlSource where
  certificateUrl
  privateKeyUrl := privateKeyUrl.filter (· ≠ "")
  passphrase
  privateKeyUrl_nonempty := by
    cases privateKeyUrl with
    | none => simp
    | some url => by_cases empty : url = "" <;> simp [empty]

/-- The source as it is shown to a developer. -/
def debugText (source : UrlSource) : String :=
  "UrlCertificateRetriever \x7b certificate_url: " ++ Quoted.quote source.certificateUrl ++
    ", private_key_url: " ++
    (match source.privateKeyUrl with
      | some url => "Some(" ++ Quoted.quote url ++ ")"
      | none => "None") ++ ", .. \x7d"

/-- The body of an answer that says it succeeded. -/
def accept (url : String) : Except Error Response → Except Error Bytes
  | .error error => .error error
  | .ok response =>
    if response.status.isSuccess then .ok response.body
    else .error (.unexpectedStatus url response.status)

/-- Where loading stands after the answer for the certificate. -/
inductive Progress where
  | awaitingKey (url : String) (certificate : Loaded Certificate)
  | finished (result : Except Error Material)

def afterCertificate (source : UrlSource) (answer : Except Error Response) : Progress :=
  match (accept source.certificateUrl answer).bind Loaded.certificate with
  | .error error => .finished (.error error)
  | .ok certificate =>
    match source.privateKeyUrl with
    | none => .finished (.ok ⟨some certificate, none⟩)
    | some url => .awaitingKey url certificate

def afterKey (source : UrlSource) (url : String) (certificate : Loaded Certificate)
    (answer : Except Error Response) : Except Error Material := do
  let pem ← accept url answer
  return ⟨some certificate, some (← Loaded.privateKey pem source.passphrase)⟩

/-- The key is fetched only after the certificate was read. -/
def load {σ : Type} (source : UrlSource) (get : Transport σ) : StateM σ (Except Error Material) := do
  match source.afterCertificate (← get source.certificateUrl) with
  | .finished result => return result
  | .awaitingKey url certificate => return source.afterKey url certificate (← get url)

end UrlSource

/-- Where credentials come from. -/
inductive Source where
  | fixed (source : StaticSource)
  | fetched (source : UrlSource)
  deriving DecidableEq

def Source.load {σ : Type} (get : Transport σ) : Source → StateM σ (Except Error Material)
  | fixed source => return source.load
  | fetched source => source.load get

end RequestSigning.Credential
