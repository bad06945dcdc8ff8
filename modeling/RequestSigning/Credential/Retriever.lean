import RequestSigning.Credential.Source
import RequestSigning.Signing.Signer
set_option autoImplicit false

namespace RequestSigning

open Credential

/-- A source of credentials, and what the latest successful refresh has loaded from it. -/
structure Retriever where
  source : Source
  material : Material
  deriving DecidableEq

namespace Retriever

/-- A retriever that has not been refreshed. -/
def new (source : Source) : Retriever :=
  ⟨source, .empty⟩

/-- Material replaces what there was, and a failure changes nothing. -/
def settle (retriever : Retriever) : Except Error Material → Except Error Unit × Retriever
  | .ok material => (.ok (), { retriever with material })
  | .error error => (.error error, retriever)

def refresh {σ : Type} (get : Transport σ) (retriever : Retriever) :
    StateM σ (Except Error Unit × Retriever) := do
  return retriever.settle (← retriever.source.load get)

/-- Refreshes one after another, with the result of each. -/
def refreshMany {σ : Type} (get : Transport σ) :
    Nat → Retriever → StateM σ (List (Except Error Unit) × Retriever)
  | 0, retriever => return ([], retriever)
  | count + 1, retriever => do
    let (result, retriever) ← retriever.refresh get
    let (results, retriever) ← refreshMany get count retriever
    return (result :: results, retriever)

def certificatePem (retriever : Retriever) : Option Bytes :=
  retriever.material.certificate.map Loaded.pem

def certificate (retriever : Retriever) : Option Certificate :=
  retriever.material.certificate.map Loaded.value

def privateKeyPem (retriever : Retriever) : Option Bytes :=
  retriever.material.privateKey.map Loaded.pem

def privateKey (retriever : Retriever) : Option Rsa.PrivateKey :=
  retriever.material.privateKey.map Loaded.value

end Retriever

namespace KeyProvider

/-- The answers of a provider that reads what is loaded, under a key id given by its user. -/
def ofMaterial (material : Material) (keyId : String) : KeyProvider where
  privateKey :=
    match material.privateKey with
    | some key => .ok key.value
    | none => .error (.keyUnavailable .noPrivateKey)
  keyId :=
    match material.certificate with
    | some _ => .ok keyId
    | none => .error (.keyUnavailable .noCertificate)
  expiration :=
    match material.certificate with
    | some certificate => certificate.value.expiration
    | none => 0

end KeyProvider

end RequestSigning
