import RequestSigning.Credential.Retriever
set_option autoImplicit false

namespace RequestSigning.KeyProvider

open Credential

variable {material : Material} {keyId answer : String} {key : Rsa.PrivateKey}

theorem privateKey_of_ofMaterial (answered : (ofMaterial material keyId).privateKey = .ok key) :
    material.privateKey.map Loaded.value = some key := by
  rw [ofMaterial] at answered
  cases loaded : material.privateKey with
  | none =>
    rw [loaded] at answered
    cases answered
  | some found =>
    rw [loaded] at answered
    cases answered
    rfl

theorem keyId_of_ofMaterial (answered : (ofMaterial material keyId).keyId = .ok answer) :
    answer = keyId := by
  rw [ofMaterial] at answered
  cases loaded : material.certificate with
  | none =>
    rw [loaded] at answered
    cases answered
  | some found =>
    rw [loaded] at answered
    cases answered
    rfl

theorem keyId_of_certificate (certificate : material.certificate.isSome = true) :
    (ofMaterial material keyId).keyId = .ok keyId := by
  obtain ⟨loaded, found⟩ := Option.isSome_iff_exists.mp certificate
  rw [ofMaterial, found]

end RequestSigning.KeyProvider
