import RequestSigning.Proofs.Credential.Certified
import RequestSigning.Proofs.Credential.Provider
import RequestSigning.Proofs.Credential.Reading
import RequestSigning.Proofs.Run
import RequestSigning.Proofs.Signing.Failure
import RequestSigning.Signing.SharedSigning
set_option autoImplicit false

namespace RequestSigning

open Credential Http Signing

section provider

variable {material : Material} {keyId : String}

/-- Only a loaded key signs. -/
theorem KeyProvider.privateKey_of_computeSignature {text : String} {signature : Bytes}
    (computed : computeSignature (some (.ofMaterial material keyId)) text = .ok signature) :
    material.privateKey.isSome = true := by
  obtain ⟨answers, key, provided, answered, -⟩ := computeSignature_eq_ok computed
  cases provided
  rw [← Option.isSome_map, KeyProvider.privateKey_of_ofMaterial answered, Option.isSome_some]

theorem authorize_of_keyId {left right : KeyProvider} (same : left.keyId = right.keyId)
    (names : List String) (signature : Bytes) (request : Request) :
    authorize (some left) names signature request =
      authorize (some right) names signature request := by
  simp only [authorize, same]

end provider

namespace SignCall

variable {call : SignCall} {names : List String} {request : Request}

theorem sign_of_prepare_eq_ok (preparing : call.config.prepare call.request = (.ok names, request))
    (material : Material) :
    call.sign material =
      complete (some (call.provider material)) (some (call.provider material)) names request :=
  Config.sign_of_prepare_eq_ok preparing

theorem sign_of_prepare_eq_error {error : Error}
    (preparing : call.config.prepare call.request = (.error error, request))
    (material : Material) : call.sign material = (.error error, request) :=
  Config.sign_of_prepare_eq_error preparing

end SignCall

namespace SignStage

/-- How far a call has come, where it has asked for the key of this material, if of any. -/
inductive Tells (call : SignCall) : Option Material → SignStage → Prop
  | idle : Tells call none idle
  | reading {seen : Bytes} {rest : Body} (withBody : call.config.signsBody call.request = true)
      (collected : call.request.body.collect = rest.collect.map (seen ++ ·)) :
      Tells call none (reading { call.request with body := [] } seen rest)
  | prepared {names : List String} {request : Request}
      (preparing : call.config.prepare call.request = (.ok names, request)) :
      Tells call none (prepared names request)
  | signed {material : Material} {names : List String} {signature : Bytes} {request : Request}
      (certificate : material.certificate.isSome = true)
      (preparing : call.config.prepare call.request = (.ok names, request))
      (computed : computeSignature (some (call.provider material))
        (signingString request names) = .ok signature) :
      Tells call (some material) (signed names signature request)
  | failed {result : Except Error Unit} {request : Request}
      (alike : ∀ material, call.sign material = (result, request)) :
      Tells call none (returned result request)
  | returned {material : Material} {result : Except Error Unit} {request : Request}
      (same : call.sign material = (result, request)) :
      Tells call (some material) (returned result request)

/-- Whether the key was asked for, and the key id was not. -/
def hasSignature : SignStage → Bool
  | signed .. => true
  | _ => false

variable {call : SignCall} {material : Material}

theorem tells_first (call : SignCall) : Tells call none (first call) := by
  rw [first]
  split
  · rename_i withBody
    refine .reading withBody ?_
    cases call.request.body.collect <;> rfl
  · rename_i withoutBody
    apply Tells.prepared
    rw [Config.prepare, if_neg withoutBody]

theorem tells_ofInstalled {request : Request} (withBody : call.config.signsBody call.request = true)
    (same : installBodyDigest request = installBodyDigest call.request) :
    Tells call none (ofInstalled (call.config.names true) (installBodyDigest request)) := by
  rw [same]
  cases installed : installBodyDigest call.request with | mk result after
  have preparing : call.config.prepare call.request =
      (result.map fun _ => call.config.names true, after) := by
    rw [Config.prepare, if_pos withBody, installed]
    cases result <;> rfl
  cases result with
  | error error => exact .failed (SignCall.sign_of_prepare_eq_error preparing)
  | ok _ => exact .prepared preparing

/-- The frames are read as they would be all at once. -/
theorem tells_afterFrame {seen : Bytes} {rest : Body}
    (withBody : call.config.signsBody call.request = true)
    (collected : call.request.body.collect = rest.collect.map (seen ++ ·)) :
    Tells call none
      (afterFrame (call.config.names true) { call.request with body := [] } seen rest) := by
  cases rest with
  | nil =>
    have whole : call.request.body.collect = .ok seen := by
      rw [collected]
      exact congrArg Except.ok (List.append_nil seen)
    have same : installBodyDigest { call.request with body := .ofBytes seen } =
        installBodyDigest call.request := by
      rw [installBodyDigest_of_ok (Body.collect_ofBytes seen), installBodyDigest_of_ok whole]
    exact tells_ofInstalled withBody same
  | cons frame rest =>
    cases frame with
    | data bytes =>
      refine .reading withBody ?_
      rw [collected, Body.collect]
      cases Body.collect rest with
      | error text => rfl
      | ok more => exact congrArg Except.ok (List.append_assoc seen bytes more).symm
    | pending => exact .reading withBody collected
    | trailers => exact .reading withBody collected
    | failure text =>
      have failed : call.request.body.collect = .error text := collected
      have alone : Body.collect [.failure text] = .error text := rfl
      have same : installBodyDigest { call.request with body := [.failure text] } =
          installBodyDigest call.request := by
        rw [installBodyDigest_of_error failed, installBodyDigest_of_error alone]
      exact tells_ofInstalled withBody same

theorem tells_afterKey {names : List String} {request : Request}
    (preparing : call.config.prepare call.request = (.ok names, request))
    (certified : material.privateKey.isSome = true → material.certificate.isSome = true) :
    Tells call (some material) (afterKey (call.provider material) names request) := by
  rw [afterKey]
  cases computed : computeSignature (some (call.provider material))
      (signingString request names) with
  | error error =>
    apply Tells.returned
    rw [SignCall.sign_of_prepare_eq_ok preparing, complete, computed]
  | ok signature =>
    exact .signed (certified (KeyProvider.privateKey_of_computeSignature computed)) preparing
      computed

/-- It does not matter of which material the key id is asked, where there is a certificate. -/
theorem tells_afterKeyId {current : Material} {names : List String} {signature : Bytes}
    {request : Request} (certificate : material.certificate.isSome = true)
    (certificateStill : current.certificate.isSome = true)
    (preparing : call.config.prepare call.request = (.ok names, request))
    (computed : computeSignature (some (call.provider material))
      (signingString request names) = .ok signature) :
    Tells call (some material) (afterKeyId (call.provider current) names signature request) := by
  have sameId : (call.provider current).keyId = (call.provider material).keyId := by
    rw [SignCall.provider, SignCall.provider, KeyProvider.keyId_of_certificate certificate,
      KeyProvider.keyId_of_certificate certificateStill]
  have once := SignCall.sign_of_prepare_eq_ok preparing material
  rw [complete, computed] at once
  dsimp only at once
  rw [← authorize_of_keyId sameId] at once
  rw [afterKeyId]
  cases authorized : authorize (some (call.provider current)) names signature request with
  | error error =>
    rw [authorized] at once
    exact .returned once
  | ok after =>
    rw [authorized] at once
    exact .returned once

variable {asked : Option Material} {stage next : SignStage} {action : SignAction}

/-- The key is asked for once at most, and of the material that there is then. -/
theorem Tells.step (tells : Tells call asked stage)
    (step : stage.step? call material action = some next)
    (certified : material.privateKey.isSome = true → material.certificate.isSome = true)
    (kept : stage.hasSignature = true → material.certificate.isSome = true) :
    (action = .askKey ∧ asked = none ∧ Tells call (some material) next) ∨
      (action ≠ .askKey ∧ Tells call asked next) := by
  cases tells with
  | idle =>
    cases action <;> cases step
    exact .inr ⟨nofun, tells_first call⟩
  | reading withBody collected =>
    cases action <;> cases step
    exact .inr ⟨nofun, tells_afterFrame withBody collected⟩
  | prepared preparing =>
    cases action <;> cases step
    exact .inl ⟨rfl, rfl, tells_afterKey preparing certified⟩
  | signed certificate preparing computed =>
    cases action <;> cases step
    exact .inr ⟨nofun, tells_afterKeyId certificate (kept rfl) preparing computed⟩
  | failed alike => cases action <;> cases step
  | returned same => cases action <;> cases step

theorem hasSignature_ofInstalled (names : List String) (outcome : Except Error Unit × Request) :
    (ofInstalled names outcome).hasSignature = false := by
  obtain ⟨result, request⟩ := outcome
  cases result <;> rfl

/-- A signature is made of the key that is loaded when it is asked for. -/
theorem privateKey_of_step? (step : stage.step? call material action = some next)
    (made : stage.hasSignature = false) (has : next.hasSignature = true) :
    material.privateKey.isSome = true := by
  cases stage with
  | idle =>
    cases action <;> cases step
    rw [first] at has
    split at has <;> cases has
  | reading request seen rest =>
    cases action <;> cases step
    rw [afterFrame.eq_def] at has
    split at has
    case h_4 | h_5 =>
      rw [hasSignature_ofInstalled] at has
      cases has
    all_goals cases has
  | prepared names request =>
    cases action <;> cases step
    rw [afterKey] at has
    split at has
    · cases has
    · rename_i computed
      exact KeyProvider.privateKey_of_computeSignature computed
  | signed names signature request => cases made
  | returned result request => cases action <;> cases step

end SignStage

namespace SharedSigning

variable {calls : Nat → SignCall} {signing next : SharedSigning} {events : List Event}

theorem run?_append (signing : SharedSigning) (events more : List Event) :
    signing.run? calls (events ++ more) = (signing.run? calls events).bind (·.run? calls more) :=
  List.foldlM_append

theorem step?_credentials {event : SharedRetriever.Event}
    (step : signing.step? calls (.credentials event) = some next) :
    ∃ shared, signing.shared.step? event = some shared ∧ next = { signing with shared } := by
  obtain ⟨shared, moved, same⟩ := Option.map_eq_some_iff.mp step
  exact ⟨shared, moved, same.symm⟩

theorem step?_sign {call : Nat} {action : SignAction}
    (step : signing.step? calls (.sign call action) = some next) :
    ∃ stage, (signing.stages call).step? (calls call) signing.shared.material action = some stage ∧
      next =
        { signing with
          stages := fun other => if other = call then stage else signing.stages other } := by
  obtain ⟨stage, moved, same⟩ := Option.map_eq_some_iff.mp step
  exact ⟨stage, moved, same.symm⟩

/-- All that is loaded has a certificate, and something is loaded where a key was found. -/
structure IsCertified (signing : SharedSigning) : Prop where
  shared : signing.shared.IsCertified
  signed : ∀ call, (signing.stages call).hasSignature = true →
    signing.shared.material.certificate.isSome = true

namespace IsCertified

theorem new (source : Source) : (SharedSigning.new source).IsCertified :=
  ⟨.new source, nofun⟩

theorem certificate_of_step? (certified : signing.IsCertified) {event : Event}
    (step : signing.step? calls event = some next)
    (certificate : signing.shared.material.certificate.isSome = true) :
    next.shared.material.certificate.isSome = true := by
  cases event with
  | credentials event =>
    obtain ⟨shared, moved, rfl⟩ := step?_credentials step
    rcases certified.shared.material_of_step? moved with same | replaced
    · dsimp only
      rw [same]
      exact certificate
    · exact replaced
  | sign call action =>
    obtain ⟨stage, -, rfl⟩ := step?_sign step
    exact certificate

theorem step (certified : signing.IsCertified) {event : Event}
    (step : signing.step? calls event = some next) : next.IsCertified where
  shared := by
    cases event with
    | credentials event =>
      obtain ⟨shared, moved, rfl⟩ := step?_credentials step
      exact certified.shared.step moved
    | sign call action =>
      obtain ⟨stage, -, rfl⟩ := step?_sign step
      exact certified.shared
  signed call has := by
    by_cases had : (signing.stages call).hasSignature = true
    · exact certified.certificate_of_step? step (certified.signed call had)
    cases event with
    | credentials event =>
      obtain ⟨shared, -, rfl⟩ := step?_credentials step
      exact absurd has had
    | sign actor action =>
      obtain ⟨stage, moved, rfl⟩ := step?_sign step
      dsimp only at has
      split at has
      · rename_i same
        subst same
        exact certified.shared.certificate_of_privateKey
          (SignStage.privateKey_of_step? moved (Bool.eq_false_iff.mpr had) has)
      · exact absurd has had

theorem run (certified : signing.IsCertified) (run : signing.run? calls events = some next) :
    next.IsCertified ∧ (signing.shared.material.certificate.isSome = true →
      next.shared.material.certificate.isSome = true) := by
  refine holds_of_foldlM
    (fun _ later => later.IsCertified ∧ (signing.shared.material.certificate.isSome = true →
      later.shared.material.certificate.isSome = true))
    ?_ [] ⟨certified, id⟩ run
  rintro _ before after event ⟨certified, kept⟩ step
  exact ⟨certified.step step,
    fun certificate => certified.certificate_of_step? step (kept certificate)⟩

end IsCertified

section call

variable {call : Nat} {asked : Option Material}

theorem tells_step (certified : signing.IsCertified)
    (tells : SignStage.Tells (calls call) asked (signing.stages call)) {event : Event}
    (step : signing.step? calls event = some next) :
    (event = .sign call .askKey ∧ asked = none ∧
      SignStage.Tells (calls call) (some signing.shared.material) (next.stages call)) ∨
    (event ≠ .sign call .askKey ∧ SignStage.Tells (calls call) asked (next.stages call)) := by
  cases event with
  | credentials event =>
    obtain ⟨shared, -, rfl⟩ := step?_credentials step
    exact .inr ⟨nofun, tells⟩
  | sign actor action =>
    obtain ⟨stage, moved, rfl⟩ := step?_sign step
    dsimp only
    by_cases same : call = actor
    · subst same
      rw [if_pos rfl]
      obtain ⟨rfl, unasked, told⟩ | ⟨other, told⟩ :=
        tells.step moved certified.shared.certificate_of_privateKey (certified.signed call)
      · exact .inl ⟨rfl, unasked, told⟩
      · refine .inr ⟨?_, told⟩
        rintro ⟨⟩
        exact other rfl
    · rw [if_neg same]
      refine .inr ⟨?_, tells⟩
      rintro ⟨⟩
      exact same rfl

theorem tells_run (certified : signing.IsCertified)
    (tells : SignStage.Tells (calls call) asked (signing.stages call))
    (run : signing.run? calls events = some next) :
    ∃ askedAfter, SignStage.Tells (calls call) askedAfter (next.stages call) ∧
      (askedAfter = asked ∨ asked = none ∧ .sign call .askKey ∈ events) := by
  suffices reached : next.IsCertified ∧ ∃ askedAfter,
      SignStage.Tells (calls call) askedAfter (next.stages call) ∧
      (askedAfter = asked ∨ asked = none ∧ .sign call .askKey ∈ events) from reached.2
  refine holds_of_foldlM
    (fun earlier later => later.IsCertified ∧ ∃ askedAfter,
      SignStage.Tells (calls call) askedAfter (later.stages call) ∧
      (askedAfter = asked ∨ asked = none ∧ .sign call .askKey ∈ earlier))
    ?_ [] ⟨certified, asked, tells, .inl rfl⟩ run
  rintro earlier before after event ⟨certified, askedBefore, tells, since⟩ step
  refine ⟨certified.step step, ?_⟩
  obtain ⟨rfl, rfl, told⟩ | ⟨-, told⟩ := tells_step certified tells step
  · refine ⟨_, told, .inr ⟨?_, List.mem_append_right _ List.mem_cons_self⟩⟩
    exact since.elim Eq.symm And.left
  · exact ⟨askedBefore, told, since.imp_right fun ⟨unasked, listed⟩ =>
      ⟨unasked, List.mem_append_left _ listed⟩⟩

end call

section finishing

/-- The call returns by what it does itself. -/
def Finishes (calls : Nat → SignCall) (call : Nat) (signing : SharedSigning) : Prop :=
  ∃ (actions : List SignAction) (after : SharedSigning) (result : Except Error Unit)
    (request : Request), signing.run? calls (actions.map (.sign call)) = some after ∧
      after.stages call = .returned result request

variable {call : Nat}

theorem Finishes.of_step? {action : SignAction} {stage : SignStage}
    (moves : (signing.stages call).step? (calls call) signing.shared.material action = some stage)
    (finishes : ∀ later : SharedSigning, later.stages call = stage → later.Finishes calls call) :
    signing.Finishes calls call := by
  let middle : SharedSigning :=
    { signing with stages := fun other => if other = call then stage else signing.stages other }
  obtain ⟨actions, after, result, request, run, returned⟩ := finishes middle (if_pos rfl)
  refine ⟨action :: actions, after, result, request, ?_, returned⟩
  rw [List.map_cons, run?, List.foldlM_cons, step?, moves]
  exact run

theorem finishes_of_returned {result : Except Error Unit} {request : Request}
    (stands : signing.stages call = .returned result request) : signing.Finishes calls call :=
  ⟨[], signing, result, request, rfl, stands⟩

theorem finishes_of_signed {names : List String} {signature : Bytes} {request : Request}
    (stands : signing.stages call = .signed names signature request) :
    signing.Finishes calls call := by
  refine .of_step? (congrArg (SignStage.step? _ _ · .askKeyId) stands) fun later stands => ?_
  rw [SignStage.afterKeyId] at stands
  split at stands <;> exact finishes_of_returned stands

theorem finishes_of_prepared {names : List String} {request : Request}
    (stands : signing.stages call = .prepared names request) : signing.Finishes calls call := by
  refine .of_step? (congrArg (SignStage.step? _ _ · .askKey) stands) fun later stands => ?_
  rw [SignStage.afterKey] at stands
  split at stands
  · exact finishes_of_returned stands
  · exact finishes_of_signed stands

theorem finishes_of_ofInstalled {names : List String} {outcome : Except Error Unit × Request}
    (stands : signing.stages call = .ofInstalled names outcome) :
    signing.Finishes calls call := by
  obtain ⟨result, request⟩ := outcome
  cases result with
  | error error => exact finishes_of_returned stands
  | ok _ => exact finishes_of_prepared stands

theorem finishes_of_reading {request : Request} {seen : Bytes} {rest : Body}
    (stands : signing.stages call = .reading request seen rest) : signing.Finishes calls call := by
  induction rest generalizing signing seen with
  | nil =>
    refine .of_step? (congrArg (SignStage.step? _ _ · .poll) stands) fun later stands => ?_
    rw [SignStage.afterFrame] at stands
    exact finishes_of_ofInstalled stands
  | cons frame rest ih =>
    refine .of_step? (congrArg (SignStage.step? _ _ · .poll) stands) fun later stands => ?_
    cases frame with
    | data bytes => exact ih stands
    | pending => exact ih stands
    | trailers => exact ih stands
    | failure text =>
      rw [SignStage.afterFrame] at stands
      exact finishes_of_ofInstalled stands

theorem finishes (calls : Nat → SignCall) (call : Nat) (signing : SharedSigning) :
    signing.Finishes calls call := by
  cases stands : signing.stages call with
  | idle =>
    refine .of_step? (congrArg (SignStage.step? _ _ · .start) stands) fun later stands => ?_
    rw [SignStage.first] at stands
    split at stands
    · exact finishes_of_reading stands
    · exact finishes_of_prepared stands
  | reading request seen rest => exact finishes_of_reading stands
  | prepared names request => exact finishes_of_prepared stands
  | signed names signature request => exact finishes_of_signed stands
  | returned result request => exact finishes_of_returned stands

end finishing

section serialized

variable {call : Nat}

/-- A call that has asked for the key does not do so again. -/
theorem askKey_not_mem {material : Material} (certified : signing.IsCertified)
    (tells : SignStage.Tells (calls call) (some material) (signing.stages call))
    (run : signing.run? calls events = some next) : .sign call .askKey ∉ events := by
  suffices reached : next.IsCertified ∧
      SignStage.Tells (calls call) (some material) (next.stages call) ∧
      .sign call .askKey ∉ events from reached.2.2
  refine holds_of_foldlM
    (fun earlier later => later.IsCertified ∧
      SignStage.Tells (calls call) (some material) (later.stages call) ∧
      .sign call .askKey ∉ earlier)
    ?_ [] ⟨certified, tells, List.not_mem_nil⟩ run
  rintro earlier before after event ⟨certified, tells, unlisted⟩ step
  obtain ⟨-, unasked, -⟩ | ⟨other, told⟩ := tells_step certified tells step
  · cases unasked
  · refine ⟨certified.step step, told, ?_⟩
    rw [List.mem_append, List.mem_singleton, not_or]
    exact ⟨unlisted, other.symm⟩

variable {source : Source} {before later : List Event}

/-- From where a call asks for the key on, it is known what it will return. -/
theorem tells_of_askKey
    (run : (new source).run? calls (before ++ .sign call .askKey :: later) = some signing) :
    ∃ earlier, (new source).run? calls before = some earlier ∧
      SignStage.Tells (calls call) (some earlier.shared.material) (signing.stages call) ∧
      .sign call .askKey ∉ later := by
  obtain ⟨earlier, runBefore, run⟩ := exists_of_foldlM_append run
  obtain ⟨middle, step, runLater⟩ := exists_of_foldlM_cons run
  have certified := ((IsCertified.new source).run runBefore).1
  obtain ⟨asked, tells, -⟩ := tells_run (IsCertified.new source) .idle runBefore
  obtain ⟨-, -, told⟩ | ⟨other, -⟩ := tells_step certified tells step
  · obtain ⟨askedAfter, toldAfter, same | ⟨unasked, -⟩⟩ :=
      tells_run (certified.step step) told runLater
    · subst same
      exact ⟨earlier, runBefore, toldAfter, askKey_not_mem (certified.step step) told runLater⟩
    · cases unasked
  · exact absurd rfl other

theorem sign_of_tells {material : Material} {result : Except Error Unit} {after : Request}
    (tells : SignStage.Tells (calls call) (some material) (signing.stages call))
    (stands : signing.stages call = .returned result after) :
    (calls call).sign material = (result, after) := by
  rw [stands] at tells
  cases tells with
  | returned same => exact same

theorem sign_of_unasked {result : Except Error Unit} {after : Request}
    (tells : SignStage.Tells (calls call) none (signing.stages call))
    (stands : signing.stages call = .returned result after) (material : Material) :
    (calls call).sign material = (result, after) := by
  rw [stands] at tells
  cases tells with
  | failed alike => exact alike material

end serialized

/-- However calls of sign and of refresh are interleaved, each call of sign returns what signing at
one moment does with the material that there was when it asked for the key, which it does once at
most; a call that has returned without asking returns what signing does with any material. A key
never comes without a certificate, material is never lost again, the question for the key id is
answered once that for the key was, and no call gets stuck. -/
theorem serialized_of_run (source : Source) (calls : Nat → SignCall) (events : List Event)
    (signing : SharedSigning) (run : (new source).run? calls events = some signing) :
    (∀ call result after, signing.stages call = .returned result after →
      (∀ before later, events = before ++ .sign call .askKey :: later →
        .sign call .askKey ∉ before ++ later ∧
        ∃ earlier, (new source).run? calls before = some earlier ∧
          (calls call).sign earlier.shared.material = (result, after)) ∧
      (.sign call .askKey ∉ events →
        ∀ material, (calls call).sign material = (result, after))) ∧
    (signing.shared.material.privateKey.isSome = true →
      signing.shared.material.certificate.isSome = true) ∧
    (∀ before later, events = before ++ later →
      ∃ earlier, (new source).run? calls before = some earlier ∧
        (earlier.shared.material.isEmpty = false → signing.shared.material.isEmpty = false)) ∧
    (∀ call names signature request, signing.stages call = .signed names signature request →
      ((calls call).provider signing.shared.material).keyId = .ok (calls call).keyId) ∧
    ∀ call, signing.Finishes calls call := by
  have certified := ((IsCertified.new source).run run).1
  refine ⟨?_, certified.shared.certificate_of_privateKey, ?_, ?_, ?_⟩
  · intro call result after stands
    refine ⟨?_, ?_⟩
    · rintro before later rfl
      obtain ⟨earlier, runBefore, tells, notLater⟩ := tells_of_askKey run
      refine ⟨?_, earlier, runBefore, sign_of_tells tells stands⟩
      rw [List.mem_append, not_or]
      refine ⟨?_, notLater⟩
      intro asked
      obtain ⟨first, between, rfl⟩ := List.append_of_mem asked
      rw [List.append_assoc, List.cons_append] at run
      obtain ⟨-, -, -, notAgain⟩ := tells_of_askKey run
      exact notAgain (List.mem_append_right _ List.mem_cons_self)
    · intro unasked
      obtain ⟨asked, tells, same | ⟨-, listed⟩⟩ := tells_run (IsCertified.new source) .idle run
      · subst same
        exact sign_of_unasked tells stands
      · exact absurd listed unasked
  · rintro before later rfl
    rw [run?_append] at run
    obtain ⟨earlier, runBefore, runLater⟩ := Option.bind_eq_some_iff.mp run
    have certifiedEarlier := ((IsCertified.new source).run runBefore).1
    refine ⟨earlier, runBefore, fun filled => ?_⟩
    have certificate := (certifiedEarlier.run runLater).2
      (certifiedEarlier.shared.certificate_of_isEmpty filled)
    rw [Material.isEmpty, Option.isNone_eq_false_iff.mpr certificate, Bool.false_and]
  · intro call names signature request stands
    apply KeyProvider.keyId_of_certificate
    apply certified.signed call
    rw [stands]
    rfl
  · exact fun call => finishes calls call signing

set_option maxRecDepth 100000 in
/-- The first credentials are published while the body is read; a refresh fails, and another one
publishes others, between the key and the key id. -/
theorem serialized_of_run_replaced :
    let source : Source := .fetched (.new "certificate" (some "key") none)
    let request : Request :=
      { method := .post, uri := .originForm .root, headers := .empty
        body := [.data [123], .pending, .data [125]] }
    let calls : Nat → SignCall := fun _ => ⟨{}, "ST$token", request⟩
    let answer (body : Bytes) : Except Error Response := .ok ⟨⟨200, by decide⟩, body⟩
    let certificate := answer (certificateText plainCertificate)
    let smallest := answer (keyText smallestKey)
    let other := answer (keyText plainKey)
    let refresh (call : Nat) (answers : List (Except Error Response)) (last : RefreshAction) :
        List Event :=
      (RefreshAction.start :: .acquire :: (answers.flatMap fun answer => [.answer answer, .read]) ++
        [last, .release]).map fun action => .credentials (.act call action)
    let before : List Event :=
      Event.sign 0 .start :: Event.sign 0 .poll :: refresh 0 [certificate, smallest] .publish ++
        [.sign 0 .poll, .sign 0 .poll, .sign 0 .poll]
    let later : List Event :=
      refresh 1 [.error (.transport "certificate" "")] .fail ++
        refresh 2 [certificate, other] .publish
    ∃ (actions : List SignAction) (signing earlier : SharedSigning) (after : Request),
      (new source).run? calls
        (before ++ .sign 0 .askKey :: (later ++ actions.map (.sign 0))) = some signing ∧
      signing.stages 0 = .returned (.ok ()) after ∧
      (new source).run? calls before = some earlier ∧
      (calls 0).sign earlier.shared.material = (.ok (), after) := by
  intro source request calls answer certificate smallest other refresh before later
  have possible : ((new source).run? calls before).any
      (fun earlier =>
        decide (earlier.shared.material.certificate.isSome = true ∧
          earlier.shared.material.privateKey.map Loaded.value = some .smallest) &&
        (earlier.run? calls (.sign 0 .askKey :: later)).isSome) = true := by
    decide +kernel
  obtain ⟨earlier, runBefore, possible⟩ := (Option.any_eq_true _ _).mp possible
  rw [Bool.and_eq_true, decide_eq_true_eq] at possible
  obtain ⟨⟨certificateLoaded, keyLoaded⟩, possible⟩ := possible
  obtain ⟨middle, runMiddle⟩ := Option.isSome_iff_exists.mp possible
  have run : (new source).run? calls (before ++ .sign 0 .askKey :: later) = some middle := by
    rw [run?_append, runBefore]
    exact runMiddle
  obtain ⟨-, -, -, -, finishes⟩ := serialized_of_run source calls _ middle run
  obtain ⟨actions, signing, result, after, runActions, stands⟩ := finishes 0
  have whole : (new source).run? calls
      (before ++ .sign 0 .askKey :: (later ++ actions.map (.sign 0))) = some signing := by
    rw [← List.cons_append, ← List.append_assoc, run?_append, run]
    exact runActions
  obtain ⟨returns, -⟩ := serialized_of_run source calls _ signing whole
  obtain ⟨-, again, runAgain, same⟩ := (returns 0 result after stands).1 before _ rfl
  rw [runBefore] at runAgain
  cases runAgain
  obtain ⟨loaded, found, value⟩ := Option.map_eq_some_iff.mp keyLoaded
  have keyAnswer : ((calls 0).provider earlier.shared.material).privateKey = .ok .smallest := by
    rw [SignCall.provider, KeyProvider.ofMaterial, found, ← value]
  have prepared : ((calls 0).config.prepare request).1 = .ok ((calls 0).config.names true) := by
    decide +kernel
  have idAnswer : ((calls 0).provider earlier.shared.material).keyId = .ok "ST$token" :=
    KeyProvider.keyId_of_certificate certificateLoaded
  obtain ⟨_, signed⟩ := (calls 0).config.exists_sign request _ _ prepared keyAnswer
    Rsa.PrivateKey.exists_sign_smallest idAnswer (by decide +kernel)
  cases same.symm.trans signed
  exact ⟨actions, signing, earlier, after, whole, stands, runBefore, same⟩

end SharedSigning

end RequestSigning
