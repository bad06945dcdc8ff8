import Mathlib
import RequestSigning.Credential.SharedRetriever
import RequestSigning.Proofs.Credential.Pems
import RequestSigning.Proofs.Run
set_option autoImplicit false

namespace RequestSigning

open Credential

namespace Credential.UrlSource

/-- The material is made of the bodies of these answers, which are all that was asked for. -/
inductive Loads (source : UrlSource) : List (Except Error Response) → Material → Prop
  | alone {response : Response} {material : Material} (keyless : source.privateKeyUrl = none)
      (success : response.status.isSuccess = true)
      (reads : Pems.Reads source.passphrase ⟨response.body, none⟩ material) :
      Loads source [.ok response] material
  | paired {response keyResponse : Response} {material : Material} {url : String}
      (keyed : source.privateKeyUrl = some url) (success : response.status.isSuccess = true)
      (keySuccess : keyResponse.status.isSuccess = true)
      (reads : Pems.Reads source.passphrase ⟨response.body, some keyResponse.body⟩ material) :
      Loads source [.ok response, .ok keyResponse] material

variable {source : UrlSource} {url : String} {answer keyAnswer : Except Error Response}
  {certificate : Loaded Certificate} {material : Material}

theorem loads_of_finished (finished : source.afterCertificate answer = .finished (.ok material)) :
    source.Loads [answer] material := by
  rw [afterCertificate_eq] at finished
  split at finished
  · cases finished
  · rename_i certificate certificateLoaded keyless
    cases finished
    obtain ⟨response, value, rfl, success, read, rfl⟩ := received_eq_ok certificateLoaded
    exact .alone keyless success (.alone read)
  · cases finished

theorem loads_of_awaitingKey
    (progress : source.afterCertificate answer = .awaitingKey url certificate)
    (finished : source.afterKey url certificate keyAnswer = .ok material) :
    source.Loads [answer, keyAnswer] material := by
  rw [afterCertificate_eq] at progress
  split at progress
  · cases progress
  · cases progress
  · rename_i certificateLoaded keyed
    cases progress
    obtain ⟨response, value, rfl, success, read, rfl⟩ := received_eq_ok certificateLoaded
    rw [afterKey_eq] at finished
    obtain ⟨key, keyLoaded, rfl⟩ := Except.map_eq_ok finished
    obtain ⟨keyResponse, keyValue, rfl, keySuccess, keyRead, rfl⟩ := received_eq_ok keyLoaded
    exact .paired keyed success keySuccess (.paired read keyRead)

end Credential.UrlSource

/-- Whether a call is between acquiring the lock and giving it back. -/
def RefreshAction.insideAfter (inside : Bool) : RefreshAction → Bool
  | acquire => true
  | release | abandon => false
  | _ => inside

namespace RefreshStage

/-- The answers among a call's actions. -/
def answers (actions : List RefreshAction) : List (Except Error Response) :=
  actions.filterMap fun
    | .answer response => some response
    | _ => none

theorem answers_append (actions more : List RefreshAction) :
    answers (actions ++ more) = answers actions ++ answers more :=
  List.filterMap_append

theorem answers_of_releases {actions : List RefreshAction}
    (releases : ∀ action ∈ actions, action = .release) : answers actions = [] := by
  rw [answers, List.filterMap_eq_nil_iff]
  intro action listed
  rw [releases action listed]

/-- The stages between which an action leads. -/
inductive Step (source : UrlSource) : RefreshStage → RefreshAction → RefreshStage → Prop
  | start : Step source .idle .start .waiting
  | acquire : Step source .waiting .acquire .awaitingCertificate
  | certificate (response : Except Error Response) :
      Step source .awaitingCertificate (.answer response) (.certificateAnswered response)
  | readCertificate (response : Except Error Response) :
      Step source (.certificateAnswered response) .read
        (.ofProgress (source.afterCertificate response))
  | key (url : String) (certificate : Loaded Certificate) (response : Except Error Response) :
      Step source (.awaitingKey url certificate) (.answer response)
        (.keyAnswered url certificate response)
  | readKey (url : String) (certificate : Loaded Certificate)
      (response : Except Error Response) :
      Step source (.keyAnswered url certificate response) .read
        (.loaded (source.afterKey url certificate response))
  | publish (material : Material) :
      Step source (.loaded (.ok material)) .publish (.settled (.ok ()))
  | fail (error : Error) : Step source (.loaded (.error error)) .fail (.settled (.error error))
  | release (result : Except Error Unit) : Step source (.settled result) .release (.returned result)
  | abandonLock : Step source .waiting .abandon .abandoned
  | abandonCertificate : Step source .awaitingCertificate .abandon .abandoned
  | abandonKey (url : String) (certificate : Loaded Certificate) :
      Step source (.awaitingKey url certificate) .abandon .abandoned

variable {source : UrlSource} {stage next : RefreshStage} {action : RefreshAction}

theorem Step.of_step? (step : stage.step? (.fetched source) action = some next) :
    Step source stage action next := by
  rw [step?.eq_def] at step
  split at step
  all_goals cases step
  all_goals constructor

theorem Step.holdsLock (step : Step source stage action next) :
    next.holdsLock = action.insideAfter stage.holdsLock := by
  cases step with
  | readCertificate response =>
    cases source.afterCertificate response <;> rfl
  | _ => rfl

theorem Step.holds_of_release (step : Step source stage action next)
    (releases : action = .release) : stage.holdsLock = true := by
  cases step with
  | release result => rfl
  | _ => cases releases

theorem Step.publishes (step : Step source stage action next) :
    (action = .publish ∧ next = .settled (.ok ()) ∧ ∃ material, stage = .loaded (.ok material)) ∨
    (action ≠ .publish ∧ stage.published? action = none) := by
  cases step with
  | publish material => exact .inl ⟨rfl, rfl, material, rfl⟩
  | _ => exact .inr ⟨nofun, rfl⟩

/-- Whether the call has published or failed. -/
def hasSettled : RefreshStage → Bool
  | settled _ | returned _ => true
  | _ => false

/-- After it has published or failed, a call only gives the lock back. -/
theorem Step.eq_release (step : Step source stage action next) (settled : stage.hasSettled = true) :
    action = .release ∧ next.hasSettled = true := by
  cases step with
  | release result => exact ⟨rfl, rfl⟩
  | _ => cases settled

/-- A call gets to the lock by acquiring it, and only once. -/
theorem Step.acquires (step : Step source stage action next) (outside : stage.holdsLock = false)
    (inside : next.holdsLock = true) : stage = .waiting ∧ action = .acquire := by
  cases step with
  | acquire => exact ⟨rfl, rfl⟩
  | start => cases inside
  | release result => cases inside
  | abandonLock => cases inside
  | _ => cases outside

theorem Step.starts (step : Step source stage action next)
    (early : next = .idle ∨ next = .waiting) : stage = .idle := by
  cases step with
  | start => rfl
  | readCertificate response =>
    cases progress : source.afterCertificate response <;> simp [progress, ofProgress] at early
  | _ => simp at early

/-- What the stage of a call tells of the actions so far. -/
def Tells (source : UrlSource) (actions : List RefreshAction) : RefreshStage → Prop
  | idle | waiting => .acquire ∉ actions ∧ answers actions = []
  | awaitingCertificate => answers actions = []
  | certificateAnswered response => answers actions = [response]
  | awaitingKey url certificate => ∃ response, answers actions = [response] ∧
      source.afterCertificate response = .awaitingKey url certificate
  | keyAnswered url certificate keyResponse => ∃ response,
      answers actions = [response, keyResponse] ∧
      source.afterCertificate response = .awaitingKey url certificate
  | loaded (.ok material) => source.Loads (answers actions) material
  | _ => True

theorem Step.tells (step : Step source stage action next) {actions : List RefreshAction}
    (tells : stage.Tells source actions) : next.Tells source (actions ++ [action]) := by
  cases step with
  | start =>
    obtain ⟨outside, unanswered⟩ := tells
    refine ⟨?_, ?_⟩
    · simpa using outside
    · rw [answers_append, unanswered]
      rfl
  | acquire =>
    obtain ⟨-, unanswered⟩ := tells
    dsimp only [Tells]
    rw [answers_append, unanswered]
    rfl
  | certificate response =>
    dsimp only [Tells] at tells ⊢
    rw [answers_append, tells]
    rfl
  | readCertificate response =>
    dsimp only [Tells] at tells
    have answered : answers (actions ++ [.read]) = [response] := by
      rw [answers_append, tells]
      rfl
    cases progress : source.afterCertificate response with
    | awaitingKey url certificate => exact ⟨response, answered, progress⟩
    | finished result =>
      cases result with
      | error error => trivial
      | ok material =>
        dsimp only [ofProgress, Tells]
        rw [answered]
        exact UrlSource.loads_of_finished progress
  | key url certificate keyResponse =>
    obtain ⟨response, answered, progress⟩ := tells
    refine ⟨response, ?_, progress⟩
    rw [answers_append, answered]
    rfl
  | readKey url certificate keyResponse =>
    obtain ⟨response, answered, progress⟩ := tells
    cases finished : source.afterKey url certificate keyResponse with
    | error error => trivial
    | ok material =>
      dsimp only [Tells]
      rw [answers_append, answered]
      exact UrlSource.loads_of_awaitingKey progress finished
  | publish material => trivial
  | fail error => trivial
  | release result => trivial
  | abandonLock => trivial
  | abandonCertificate => trivial
  | abandonKey url certificate => trivial

/-- A call by itself. -/
def run? (source : Source) (stage : RefreshStage) (actions : List RefreshAction) :
    Option RefreshStage :=
  actions.foldlM (step? source) stage

theorem holdsLock_of_run? {actions : List RefreshAction}
    (run : run? (.fetched source) stage actions = some next) :
    next.holdsLock = actions.foldl RefreshAction.insideAfter stage.holdsLock := by
  refine holds_of_foldlM
    (fun earlier later =>
      later.holdsLock = earlier.foldl RefreshAction.insideAfter stage.holdsLock)
    (fun held step => ?_) [] rfl run
  rw [(Step.of_step? step).holdsLock, held, List.foldl_append, List.foldl_cons, List.foldl_nil]

theorem tells_of_run? {earlier actions : List RefreshAction}
    (run : run? (.fetched source) stage actions = some next)
    (tells : stage.Tells source earlier) : next.Tells source (earlier ++ actions) :=
  holds_of_foldlM (fun earlier later => later.Tells source earlier)
    (fun tells step => (Step.of_step? step).tells tells) earlier tells run

theorem eq_release_of_run? {actions : List RefreshAction}
    (run : run? (.fetched source) stage actions = some next) (settled : stage.hasSettled = true) :
    (∀ action ∈ actions, action = .release) ∧ next.hasSettled = true := by
  refine holds_of_foldlM
    (fun earlier later => (∀ action ∈ earlier, action = .release) ∧ later.hasSettled = true)
    ?_ [] ⟨List.forall_mem_nil _, settled⟩ run
  rintro earlier before after action ⟨releases, settled⟩ step
  obtain ⟨released, settledStill⟩ := (Step.of_step? step).eq_release settled
  exact ⟨List.forall_mem_append.mpr ⟨releases, List.forall_mem_singleton.mpr released⟩,
    settledStill⟩

theorem acquires_of_run? {actions : List RefreshAction}
    (run : run? (.fetched source) stage actions = some next) (outside : stage.holdsLock = false)
    (inside : next.holdsLock = true) :
    (stage = .idle ∨ stage = .waiting) ∧ .acquire ∈ actions := by
  induction actions generalizing stage with
  | nil =>
    cases run
    rw [outside] at inside
    cases inside
  | cons action actions ih =>
    obtain ⟨middle, step, rest⟩ := exists_of_foldlM_cons run
    have step := Step.of_step? step
    cases held : middle.holdsLock with
    | true =>
      obtain ⟨rfl, rfl⟩ := step.acquires outside held
      exact ⟨.inr rfl, List.mem_cons_self⟩
    | false =>
      obtain ⟨early, acquired⟩ := ih rest held
      refine ⟨?_, List.mem_cons_of_mem _ acquired⟩
      exact .inl (step.starts early)

end RefreshStage

end RequestSigning
