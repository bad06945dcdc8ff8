import RequestSigning.Proofs.Credential.SharedRetriever
set_option autoImplicit false

namespace RequestSigning

open Credential

namespace Credential

variable {material : Material}

/-- Whatever is loaded has a certificate. -/
theorem StaticSource.certificate_of_load {source : StaticSource}
    (loaded : source.load = .ok material) : material.certificate.isSome = true := by
  rw [load_eq] at loaded
  obtain ⟨certificate, -, loaded⟩ := Except.bind_eq_ok loaded
  split at loaded
  · cases loaded
    rfl
  · obtain ⟨key, -, rfl⟩ := Except.map_eq_ok loaded
    rfl

variable {source : UrlSource} {answer : Except Error Response}

theorem UrlSource.certificate_of_afterCertificate
    (finished : source.afterCertificate answer = .finished (.ok material)) :
    material.certificate.isSome = true := by
  rw [afterCertificate_eq] at finished
  split at finished
  · cases finished
  · cases finished
    rfl
  · cases finished

theorem UrlSource.certificate_of_afterKey {url : String} {certificate : Loaded Certificate}
    (loaded : source.afterKey url certificate answer = .ok material) :
    material.certificate.isSome = true := by
  rw [afterKey_eq] at loaded
  obtain ⟨key, -, rfl⟩ := Except.map_eq_ok loaded
  rfl

end Credential

namespace RefreshStage

/-- What is loaded has a certificate. -/
def IsCertified : RefreshStage → Prop
  | loaded (.ok material) => material.certificate.isSome = true
  | _ => True

variable {source : Source} {stage next : RefreshStage} {action : RefreshAction}
  {material : Material}

theorem isCertified_first (source : Source) : (first source).IsCertified := by
  cases source with
  | fetched source => trivial
  | fixed source =>
    rw [first]
    cases loading : source.load with
    | error error => trivial
    | ok material => exact StaticSource.certificate_of_load loading

theorem isCertified_ofProgress (source : UrlSource) (answer : Except Error Response) :
    (ofProgress (source.afterCertificate answer)).IsCertified := by
  cases progress : source.afterCertificate answer with
  | awaitingKey url certificate => trivial
  | finished result =>
    cases result with
    | error error => trivial
    | ok material => exact UrlSource.certificate_of_afterCertificate progress

theorem isCertified_afterKey (source : UrlSource) (url : String) (certificate : Loaded Certificate)
    (answer : Except Error Response) :
    (loaded (source.afterKey url certificate answer)).IsCertified := by
  cases loading : source.afterKey url certificate answer with
  | error error => trivial
  | ok material => exact UrlSource.certificate_of_afterKey loading

/-- This holds after every step, whatever came before. -/
theorem isCertified_of_step? (step : stage.step? source action = some next) :
    next.IsCertified := by
  cases stage
  case waiting =>
    cases action <;> cases step
    case acquire => exact isCertified_first source
    case abandon => trivial
  case certificateAnswered response =>
    cases source <;> cases action <;> cases step
    exact isCertified_ofProgress _ response
  case keyAnswered url certificate response =>
    cases source <;> cases action <;> cases step
    exact isCertified_afterKey _ url certificate response
  case loaded result => cases result <;> cases action <;> cases step <;> trivial
  all_goals cases action <;> cases step <;> trivial

theorem IsCertified.published (certified : stage.IsCertified)
    (publishes : stage.published? action = some material) :
    material.certificate.isSome = true := by
  rw [published?.eq_def] at publishes
  split at publishes
  · cases publishes
    exact certified
  · cases publishes

end RefreshStage

/-- All that is loaded or published has a certificate. -/
structure SharedRetriever.IsCertified (shared : SharedRetriever) : Prop where
  stages : ∀ call, (shared.stages call).IsCertified
  material : shared.material = .empty ∨ shared.material.certificate.isSome = true

namespace SharedRetriever.IsCertified

variable {shared next : SharedRetriever} {event : Event}

theorem new (source : Source) : (SharedRetriever.new source).IsCertified :=
  ⟨fun _ => trivial, .inl rfl⟩

theorem certificate_of_privateKey (certified : shared.IsCertified)
    (keyed : shared.material.privateKey.isSome = true) :
    shared.material.certificate.isSome = true := by
  rcases certified.material with nothing | something
  · rw [nothing] at keyed
    cases keyed
  · exact something

theorem certificate_of_isEmpty (certified : shared.IsCertified)
    (filled : shared.material.isEmpty = false) : shared.material.certificate.isSome = true := by
  rcases certified.material with nothing | something
  · rw [nothing] at filled
    cases filled
  · exact something

/-- The material stays, or other material with a certificate takes its place. -/
theorem material_of_step? (certified : shared.IsCertified)
    (step : shared.step? event = some next) :
    next.material = shared.material ∨ next.material.certificate.isSome = true := by
  cases event with
  | look reader =>
    cases step
    exact .inl rfl
  | act call action =>
    obtain ⟨stage, holder, -, -, rfl⟩ := step?_act step
    rw [SharedRetriever.material]
    dsimp only
    split
    · rename_i material publishes
      exact .inr ((certified.stages call).published publishes)
    · exact .inl rfl

theorem step (certified : shared.IsCertified) (step : shared.step? event = some next) :
    next.IsCertified where
  stages call := by
    cases event with
    | look reader =>
      cases step
      exact certified.stages call
    | act actor action =>
      obtain ⟨stage, holder, moved, -, rfl⟩ := step?_act step
      dsimp only
      split
      · exact RefreshStage.isCertified_of_step? moved
      · exact certified.stages call
  material := by
    rcases certified.material_of_step? step with same | certificate
    · rw [same]
      exact certified.material
    · exact .inr certificate

end SharedRetriever.IsCertified

end RequestSigning
