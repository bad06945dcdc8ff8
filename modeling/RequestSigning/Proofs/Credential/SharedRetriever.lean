import Mathlib
import RequestSigning.Proofs.Credential.Reading
import RequestSigning.Proofs.Credential.RefreshStage
set_option autoImplicit false

namespace RequestSigning.SharedRetriever

open Credential

/-- What one call does among what happens. -/
def actionsOf (call : Nat) (events : List Event) : List RefreshAction :=
  events.filterMap fun
    | .act other action => if other = call then some action else none
    | .look _ => none

/-- The answers that one call is given. -/
def answersTo (call : Nat) (events : List Event) : List (Except Error Response) :=
  RefreshStage.answers (actionsOf call events)

/-- Whether a call has acquired the lock and has not given it back. -/
def isInside (call : Nat) (events : List Event) : Bool :=
  (actionsOf call events).foldl RefreshAction.insideAfter false

/-- The calls that have published, in the order in which they have. -/
def publishers (events : List Event) : List Nat :=
  events.filterMap fun
    | .act call .publish => some call
    | _ => none

theorem actionsOf_append (call : Nat) (events more : List Event) :
    actionsOf call (events ++ more) = actionsOf call events ++ actionsOf call more :=
  List.filterMap_append

theorem answersTo_append (call : Nat) (events more : List Event) :
    answersTo call (events ++ more) = answersTo call events ++ answersTo call more := by
  rw [answersTo, actionsOf_append, RefreshStage.answers_append]
  rfl

theorem answersTo_publish (call other : Nat) (events : List Event) :
    answersTo call (.act other .publish :: events) = answersTo call events := by
  rw [answersTo, actionsOf, List.filterMap_cons]
  split
  · rfl
  · rename_i action acted
    split at acted
    · rename_i acting
      cases acting
      split_ifs at acted
      cases acted
      rfl
    · cases acted

theorem actionsOf_act (call other : Nat) (action : RefreshAction) :
    actionsOf other [.act call action] = if call = other then [action] else [] := by
  rw [actionsOf, List.filterMap_cons]
  split_ifs <;> simp_all

theorem mem_actionsOf {call : Nat} {action : RefreshAction} {events : List Event} :
    action ∈ actionsOf call events ↔ .act call action ∈ events := by
  rw [actionsOf, List.mem_filterMap]
  constructor
  · rintro ⟨event, happened, acted⟩
    split at acted
    · split at acted
      · rename_i same
        cases acted
        rw [← same]
        exact happened
      · cases acted
    · cases acted
  · intro happened
    exact ⟨_, happened, if_pos rfl⟩

theorem publishers_append (events more : List Event) :
    publishers (events ++ more) = publishers events ++ publishers more :=
  List.filterMap_append

variable {source : UrlSource} {shared next : SharedRetriever} {events : List Event}

theorem run?_append (shared : SharedRetriever) (events more : List Event) :
    shared.run? (events ++ more) = (shared.run? events).bind (·.run? more) :=
  List.foldlM_append

theorem step?_act {call : Nat} {action : RefreshAction}
    (step : shared.step? (.act call action) = some next) :
    ∃ stage holder,
      (shared.stages call).step? shared.retriever.source action = some stage ∧
      holderAfter? shared.holder call action = some holder ∧
      next =
        { shared with
          retriever :=
            match (shared.stages call).published? action with
            | some material => { shared.retriever with material }
            | none => shared.retriever
          holder
          stages := fun other => if other = call then stage else shared.stages other } := by
  rw [step?] at step
  obtain ⟨stage, moved, step⟩ := Option.bind_eq_some_iff.mp step
  obtain ⟨holder, locked, step⟩ := Option.bind_eq_some_iff.mp step
  exact ⟨stage, holder, moved, locked, (Option.some.inj step).symm⟩

theorem source_of_step? {event : Event} (step : shared.step? event = some next) :
    next.retriever.source = shared.retriever.source := by
  cases event with
  | look reader =>
    cases step
    rfl
  | act call action =>
    obtain ⟨stage, holder, -, -, rfl⟩ := step?_act step
    dsimp only
    split <;> rfl

/-- The lock goes from hand to hand as the actions say, if whoever gives it back has had it. -/
theorem holder_of_holderAfter? {holder after : Option Nat} {call : Nat} {action : RefreshAction}
    (held : holderAfter? holder call action = some after)
    (gives : action = .release → holder = some call) (other : Nat) :
    after = some other ↔
      if other = call then action.insideAfter (holder = some call) = true
      else holder = some other := by
  cases action with
  | acquire =>
    rw [holderAfter?] at held
    split at held
    · rename_i free
      cases held
      simp [free, RefreshAction.insideAfter, eq_comm]
    · cases held
  | release =>
    cases held
    simp [gives rfl, RefreshAction.insideAfter, eq_comm]
  | abandon =>
    cases held
    by_cases same : other = call
    · subst same
      by_cases had : holder = some other <;> simp [had, RefreshAction.insideAfter]
    · by_cases had : holder = some call <;> simp [had, same, Ne.symm same]
  | _ =>
    cases held
    by_cases same : other = call
    · simp [same, RefreshAction.insideAfter]
    · simp [same]

/-- A call moves by what it does itself, whatever the others do. -/
theorem stages_of_step? {event : Event} (step : shared.step? event = some next) (call : Nat) :
    (shared.stages call).run? shared.retriever.source (actionsOf call [event]) =
      some (next.stages call) := by
  cases event with
  | look reader =>
    cases step
    rfl
  | act other action =>
    obtain ⟨stage, holder, moved, -, rfl⟩ := step?_act step
    rw [actionsOf_act]
    by_cases same : other = call
    · subst same
      rw [if_pos rfl, RefreshStage.run?, List.foldlM_cons, moved]
      simp
    · rw [if_neg same]
      simp [RefreshStage.run?, Ne.symm same]

section alone

variable {σ : Type} (shared : SharedRetriever) (call : Nat)

theorem run?_load (get : Transport σ) (start : σ) (free : shared.holder = none)
    (idle : shared.stages call = .idle) :
    ∃ (actions : List RefreshAction) (middle : SharedRetriever),
      shared.run? (actions.map (.act call)) = some middle ∧
      middle.stages call = .loaded (shared.retriever.source.load get start).1 ∧
      middle.retriever = shared.retriever := by
  cases configured : shared.retriever.source with
  | fixed source =>
    refine ⟨[.start, .acquire], ?_⟩
    simp [run?, step?, RefreshStage.step?, RefreshStage.first, RefreshStage.published?,
      holderAfter?, free, idle, configured]
    rfl
  | fetched source =>
    dsimp only [Source.load, UrlSource.load, bind, StateT.bind]
    cases get source.certificateUrl start with | mk answer rest
    dsimp only
    cases progress : source.afterCertificate answer with
    | finished result =>
      refine ⟨[.start, .acquire, .answer answer, .read], ?_⟩
      simp [run?, step?, RefreshStage.step?, RefreshStage.first, RefreshStage.published?,
        holderAfter?, RefreshStage.ofProgress, free, idle, configured, progress]
      rfl
    | awaitingKey url certificate =>
      dsimp only [StateT.bind]
      cases get url rest with | mk keyAnswer last
      refine ⟨[.start, .acquire, .answer answer, .read, .answer keyAnswer, .read], ?_⟩
      simp [run?, step?, RefreshStage.step?, RefreshStage.first, RefreshStage.published?,
        holderAfter?, RefreshStage.ofProgress, free, idle, configured, progress]
      rfl

theorem run?_settle {result : Except Error Material}
    (loaded : shared.stages call = .loaded result) :
    ∃ (actions : List RefreshAction) (after : SharedRetriever),
      shared.run? (actions.map (.act call)) = some after ∧ after.holder = none ∧
      after.stages call = .returned (shared.retriever.settle result).1 ∧
      after.retriever = (shared.retriever.settle result).2 := by
  cases result with
  | error error =>
    refine ⟨[.fail, .release], ?_⟩
    simp [run?, step?, RefreshStage.step?, RefreshStage.published?, holderAfter?,
      Retriever.settle, loaded]
  | ok material =>
    refine ⟨[.publish, .release], ?_⟩
    simp [run?, step?, RefreshStage.step?, RefreshStage.published?, holderAfter?,
      Retriever.settle, loaded]

/-- A call that nothing comes between does what a refresh by itself does. -/
theorem run?_alone (get : Transport σ) (start : σ) (free : shared.holder = none)
    (idle : shared.stages call = .idle) :
    ∃ (actions : List RefreshAction) (after : SharedRetriever),
      shared.run? (actions.map (.act call)) = some after ∧ after.holder = none ∧
      after.stages call = .returned (shared.retriever.refresh get start).1.1 ∧
      after.retriever = (shared.retriever.refresh get start).1.2 := by
  obtain ⟨loading, middle, loads, loaded, same⟩ := shared.run?_load call get start free idle
  obtain ⟨settling, after, settles, ends⟩ := middle.run?_settle call loaded
  refine ⟨loading ++ settling, after, ?_, ?_⟩
  · rw [List.map_append, run?_append, loads]
    exact settles
  · rw [same] at ends
    exact ends

end alone

theorem settled_of_step? {event : Event} (configured : shared.retriever.source = .fetched source)
    (step : shared.step? event = some next) {call : Nat}
    (settled : (shared.stages call).hasSettled = true) :
    (next.stages call).hasSettled = true ∧ answersTo call [event] = [] := by
  have moves := stages_of_step? step call
  rw [configured] at moves
  obtain ⟨releases, settledStill⟩ := RefreshStage.eq_release_of_run? moves settled
  exact ⟨settledStill, RefreshStage.answers_of_releases releases⟩

/-- The material was loaded by one call that has published it. -/
def WasLoaded (source : UrlSource) (events : List Event) (shared : SharedRetriever)
    (material : Material) (call : Nat) : Prop :=
  (shared.stages call).hasSettled = true ∧ source.Loads (answersTo call events) material

theorem WasLoaded.step {event : Event} (configured : shared.retriever.source = .fetched source)
    (step : shared.step? event = some next) {material : Material} {call : Nat}
    (loaded : WasLoaded source events shared material call) :
    WasLoaded source (events ++ [event]) next material call := by
  obtain ⟨settled, loads⟩ := loaded
  obtain ⟨settledStill, unanswered⟩ := settled_of_step? configured step settled
  refine ⟨settledStill, ?_⟩
  rw [answersTo_append, unanswered, List.append_nil]
  exact loads

/-- What holds of every state that the events lead to. -/
structure IsReached (source : UrlSource) (events : List Event) (shared : SharedRetriever) :
    Prop where
  configured : shared.retriever.source = .fetched source
  tells : ∀ call, (shared.stages call).Tells source (actionsOf call events)
  inside : ∀ call, (shared.stages call).holdsLock = isInside call events
  locked : ∀ call, shared.holder = some call ↔ (shared.stages call).holdsLock = true
  current :
    match (publishers events).getLast? with
    | none => shared.material = .empty
    | some call => WasLoaded source events shared shared.material call
  views : ∀ reader, shared.views reader = .empty ∨
    ∃ call ∈ publishers events, WasLoaded source events shared (shared.views reader) call

namespace IsReached

theorem new (source : UrlSource) : IsReached source [] (.new (.fetched source)) where
  configured := rfl
  tells _ := ⟨List.not_mem_nil, rfl⟩
  inside _ := rfl
  locked _ := by simp [SharedRetriever.new, RefreshStage.holdsLock]
  current := rfl
  views _ := .inl rfl

theorem material (reached : IsReached source events shared) :
    shared.material = .empty ∨
    ∃ call ∈ publishers events, WasLoaded source events shared shared.material call := by
  have current := reached.current
  split at current
  · exact .inl current
  · rename_i call last
    exact .inr ⟨call, List.mem_of_getLast? last, current⟩

theorem moves (reached : IsReached source events shared) {event : Event}
    (step : shared.step? event = some next) (call : Nat) :
    (shared.stages call).run? (.fetched source) (actionsOf call [event]) =
      some (next.stages call) := by
  rw [← reached.configured]
  exact stages_of_step? step call

theorem locked_step (reached : IsReached source events shared) {event : Event}
    (step : shared.step? event = some next) (call : Nat) :
    next.holder = some call ↔ (next.stages call).holdsLock = true := by
  cases event with
  | look reader =>
    cases step
    exact reached.locked call
  | act actor action =>
    obtain ⟨stage, holder, moved, held, rfl⟩ := step?_act step
    rw [reached.configured] at moved
    have moves := RefreshStage.Step.of_step? moved
    have gives (releases : action = .release) : shared.holder = some actor := by
      rw [reached.locked]
      exact moves.holds_of_release releases
    have had : (shared.stages actor).holdsLock = decide (shared.holder = some actor) := by
      rw [Bool.eq_iff_iff, decide_eq_true_iff]
      exact (reached.locked actor).symm
    dsimp only
    rw [holder_of_holderAfter? held gives, ← had]
    split
    · rw [moves.holdsLock]
    · exact reached.locked call

/-- The material changes only where a call publishes what it has loaded. -/
theorem material_step (reached : IsReached source events shared) {event : Event}
    (step : shared.step? event = some next) :
    (publishers [event] = [] ∧ next.material = shared.material) ∨
    ∃ call, publishers [event] = [call] ∧
      WasLoaded source (events ++ [event]) next next.material call := by
  cases event with
  | look reader =>
    cases step
    exact .inl ⟨rfl, rfl⟩
  | act call action =>
    obtain ⟨stage, holder, moved, -, rfl⟩ := step?_act step
    rw [reached.configured] at moved
    obtain ⟨rfl, rfl, material, loaded⟩ | ⟨silent, unpublished⟩ :=
      (RefreshStage.Step.of_step? moved).publishes
    · refine .inr ⟨call, rfl, ?_, ?_⟩
      · dsimp only
        rw [if_pos rfl]
        rfl
      · have loads := reached.tells call
        rw [loaded] at loads
        rw [answersTo_append, answersTo, answersTo, actionsOf_act, if_pos rfl, loaded]
        dsimp only [RefreshStage.published?, SharedRetriever.material]
        rw [show RefreshStage.answers [.publish] = [] from rfl, List.append_nil]
        exact loads
    · refine .inl ⟨?_, ?_⟩
      · rw [publishers, List.filterMap_eq_nil_iff]
        intro event listed
        rw [List.mem_singleton] at listed
        subst listed
        split
        · rename_i published
          cases published
          exact absurd rfl silent
        · rfl
      · rw [unpublished]
        rfl

theorem current_step (reached : IsReached source events shared) {event : Event}
    (step : shared.step? event = some next) :
    match (publishers (events ++ [event])).getLast? with
    | none => next.material = .empty
    | some call => WasLoaded source (events ++ [event]) next next.material call := by
  rw [publishers_append]
  obtain ⟨silent, same⟩ | ⟨call, publishes, loaded⟩ := reached.material_step step
  · rw [silent, List.append_nil, same]
    have current := reached.current
    split at current
    · exact current
    · exact current.step reached.configured step
  · rw [publishes, List.getLast?_concat]
    exact loaded

theorem views_step (reached : IsReached source events shared) {event : Event}
    (step : shared.step? event = some next) (reader : Nat) :
    next.views reader = .empty ∨
    ∃ call ∈ publishers (events ++ [event]),
      WasLoaded source (events ++ [event]) next (next.views reader) call := by
  have shown : shared.views reader = next.views reader ∨ shared.material = next.views reader := by
    cases event with
    | look other =>
      cases step
      dsimp only
      split
      · exact .inr rfl
      · exact .inl rfl
    | act call action =>
      obtain ⟨stage, holder, -, -, rfl⟩ := step?_act step
      exact .inl rfl
  have earlier : next.views reader = .empty ∨
      ∃ call ∈ publishers events, WasLoaded source events shared (next.views reader) call := by
    rcases shown with shown | shown
    · rw [← shown]
      exact reached.views reader
    · rw [← shown]
      exact reached.material
  refine earlier.imp_right ?_
  rintro ⟨call, published, loaded⟩
  rw [publishers_append]
  exact ⟨call, List.mem_append_left _ published, loaded.step reached.configured step⟩

theorem step (reached : IsReached source events shared) {event : Event}
    (step : shared.step? event = some next) : IsReached source (events ++ [event]) next where
  configured := (source_of_step? step).trans reached.configured
  tells call := by
    rw [actionsOf_append]
    exact RefreshStage.tells_of_run? (reached.moves step call) (reached.tells call)
  inside call := by
    rw [RefreshStage.holdsLock_of_run? (reached.moves step call), reached.inside, isInside,
      isInside, actionsOf_append, List.foldl_append]
  locked := reached.locked_step step
  current := reached.current_step step
  views := reached.views_step step

theorem run (reached : IsReached source events shared) {more : List Event}
    (run : shared.run? more = some next) : IsReached source (events ++ more) next :=
  holds_of_foldlM (IsReached source) (fun reached moved => reached.step moved) events reached run

theorem moves_run (reached : IsReached source events shared) {more : List Event}
    (run : shared.run? more = some next) (call : Nat) :
    (shared.stages call).run? (.fetched source) (actionsOf call more) =
      some (next.stages call) := by
  refine (holds_of_foldlM
    (fun later after => IsReached source (events ++ later) after ∧
      (shared.stages call).run? (.fetched source) (actionsOf call later) =
        some (after.stages call))
    ?_ [] ⟨(List.append_nil events).symm ▸ reached, rfl⟩ run).2
  rintro later before after event ⟨reached, moved⟩ step
  constructor
  · rw [← List.append_assoc]
    exact reached.step step
  · rw [actionsOf_append, RefreshStage.run?, List.foldlM_append]
    exact Option.bind_eq_some_iff.mpr ⟨_, moved, reached.moves step call⟩

theorem of_run? (run : (SharedRetriever.new (.fetched source)).run? events = some shared) :
    IsReached source events shared :=
  (new source).run run

theorem exclusive (reached : IsReached source events shared) {first second : Nat}
    (insideFirst : (shared.stages first).holdsLock = true)
    (insideSecond : (shared.stages second).holdsLock = true) : first = second := by
  rw [← reached.locked] at insideFirst insideSecond
  exact Option.some.inj (insideFirst.symm.trans insideSecond)

/-- A call publishes while it has the lock, and has it still. -/
theorem publishes (reached : IsReached source events shared) {call : Nat}
    (step : shared.step? (.act call .publish) = some next) :
    ((shared.stages call).holdsLock = true ∧ (shared.stages call).hasSettled = false) ∧
    (next.stages call).holdsLock = true ∧ (next.stages call).hasSettled = true := by
  obtain ⟨stage, holder, moved, -, rfl⟩ := step?_act step
  rw [reached.configured] at moved
  obtain ⟨-, rfl, material, loaded⟩ | ⟨silent, -⟩ := (RefreshStage.Step.of_step? moved).publishes
  · dsimp only
    rw [loaded, if_pos rfl]
    exact ⟨⟨rfl, rfl⟩, rfl, rfl⟩
  · exact absurd rfl silent

/-- A call that gets to the lock later has not acquired it yet, nor been answered. -/
theorem acquires (reached : IsReached source events shared) {more : List Event}
    (run : shared.run? more = some next) {call : Nat}
    (outside : (shared.stages call).holdsLock = false)
    (inside : (next.stages call).holdsLock = true) :
    .act call .acquire ∉ events ∧ answersTo call events = [] ∧ .act call .acquire ∈ more := by
  obtain ⟨early, acquired⟩ :=
    RefreshStage.acquires_of_run? (reached.moves_run run call) outside inside
  have tells := reached.tells call
  rw [← mem_actionsOf, ← mem_actionsOf]
  rcases early with early | early
  · rw [early] at tells
    exact ⟨tells.1, tells.2, acquired⟩
  · rw [early] at tells
    exact ⟨tells.1, tells.2, acquired⟩

theorem answersTo_of_settled (reached : IsReached source events shared) {more : List Event}
    (run : shared.run? more = some next) {call : Nat}
    (settled : (shared.stages call).hasSettled = true) :
    answersTo call more = [] ∧ (next.stages call).hasSettled = true := by
  obtain ⟨releases, settledStill⟩ :=
    RefreshStage.eq_release_of_run? (reached.moves_run run call) settled
  exact ⟨RefreshStage.answers_of_releases releases, settledStill⟩

end IsReached

/-- Whatever happens in between, the call that publishes first has had all its answers by then,
and the other has not acquired the lock before, so that it has asked for nothing. -/
theorem precedes_of_run? {before between after : List Event} {first second : Nat}
    (run : (SharedRetriever.new (.fetched source)).run?
      (before ++ .act first .publish :: (between ++ .act second .publish :: after)) = some shared) :
    .act first .acquire ∈ before ∧ .act second .acquire ∉ before ∧
    .act second .acquire ∈ between ∧
    answersTo first (.act first .publish :: (between ++ .act second .publish :: after)) = [] ∧
    answersTo second before = [] ∧
    answersTo second (.act second .publish :: after) = [] := by
  obtain ⟨earlier, runBefore, run⟩ := exists_of_foldlM_append run
  obtain ⟨published, publishFirst, rest⟩ := exists_of_foldlM_cons run
  have reachedEarlier := IsReached.of_run? runBefore
  have reachedPublished := reachedEarlier.step publishFirst
  obtain ⟨⟨insideEarlier, -⟩, insidePublished, settledFirst⟩ :=
    reachedEarlier.publishes publishFirst
  obtain ⟨answeredFirst, -⟩ := reachedPublished.answersTo_of_settled rest settledFirst
  obtain ⟨later, runBetween, rest⟩ := exists_of_foldlM_append rest
  obtain ⟨last, publishSecond, runAfter⟩ := exists_of_foldlM_cons rest
  have reachedLater := reachedPublished.run runBetween
  obtain ⟨⟨insideLater, unsettled⟩, -, settledSecond⟩ := reachedLater.publishes publishSecond
  obtain ⟨answeredSecond, -⟩ :=
    (reachedLater.step publishSecond).answersTo_of_settled runAfter settledSecond
  have apart : first ≠ second := by
    rintro rfl
    obtain ⟨-, settledLater⟩ := reachedPublished.answersTo_of_settled runBetween settledFirst
    rw [unsettled] at settledLater
    cases settledLater
  -- A call that has published still has the lock, which keeps the other one out.
  have outside : (published.stages second).holdsLock = false := by
    rw [Bool.eq_false_iff]
    intro inside
    exact apart (reachedPublished.exclusive insidePublished inside)
  obtain ⟨-, -, acquiredFirst⟩ := (IsReached.new source).acquires runBefore rfl insideEarlier
  obtain ⟨unacquired, unanswered, acquiredSecond⟩ :=
    reachedPublished.acquires runBetween outside insideLater
  rw [answersTo_append] at unanswered
  refine ⟨acquiredFirst, ?_, acquiredSecond, ?_, (List.append_eq_nil_iff.mp unanswered).1, ?_⟩
  · intro happened
    exact unacquired (List.mem_append_left _ happened)
  · rw [answersTo_publish, answeredFirst]
  · rw [answersTo_publish, answeredSecond]

/-- Of any number of calls, no two are ever between acquiring the lock and giving it back. The
current material, and with it all that readers have seen, is made of what a single call that has
published was answered, and calls publish in the order in which they have acquired the lock. -/
theorem exclusive_of_run (source : UrlSource) (events : List Event) (shared : SharedRetriever)
    (run : (SharedRetriever.new (.fetched source)).run? events = some shared) :
    (∀ first second, isInside first events = true → isInside second events = true →
      first = second) ∧
    (match (publishers events).getLast? with
      | none => shared.material = .empty
      | some call => source.Loads (answersTo call events) shared.material) ∧
    (∀ reader, shared.views reader = .empty ∨
      ∃ call ∈ publishers events, source.Loads (answersTo call events) (shared.views reader)) ∧
    ∀ before first between second after,
      events = before ++ .act first .publish :: (between ++ .act second .publish :: after) →
      .act first .acquire ∈ before ∧ .act second .acquire ∉ before ∧
      .act second .acquire ∈ between ∧
      answersTo first events = answersTo first before ∧
      answersTo second events = answersTo second between := by
  have reached := IsReached.of_run? run
  refine ⟨?_, ?_, ?_, ?_⟩
  · intro first second insideFirst insideSecond
    rw [← reached.inside] at insideFirst insideSecond
    exact reached.exclusive insideFirst insideSecond
  · have current := reached.current
    split at current
    · exact current
    · exact current.2
  · intro reader
    refine (reached.views reader).imp_right ?_
    rintro ⟨call, published, -, loads⟩
    exact ⟨call, published, loads⟩
  · rintro before first between second after rfl
    obtain ⟨acquiredFirst, unacquired, acquiredSecond, answeredFirst, unanswered, answeredSecond⟩ :=
      precedes_of_run? run
    refine ⟨acquiredFirst, unacquired, acquiredSecond, ?_, ?_⟩
    · rw [answersTo_append, answeredFirst, List.append_nil]
    · rw [answersTo_append, answersTo_publish, answersTo_append, unanswered, answeredSecond,
        List.nil_append, List.append_nil]

set_option maxRecDepth 100000 in
/-- Three calls, of which one is given up after its certificate was answered. -/
theorem exclusive_of_run_abandoned :
    let source : UrlSource := .new "certificate" (some "key") none
    let answer (body : Bytes) : Except Error Response := .ok ⟨⟨200, by decide⟩, body⟩
    let certificate := answer (certificateText plainCertificate)
    let key := answer (keyText plainKey)
    let events : List Event :=
      [.act 0 .start, .act 1 .start, .act 0 .acquire, .act 2 .start,
        .act 0 (.answer certificate), .act 0 .read, .look 0, .act 0 (.answer key), .act 0 .read,
        .act 0 .publish, .look 0, .act 0 .release, .act 1 .acquire,
        .act 1 (.answer certificate), .act 1 .read, .act 1 .abandon, .act 2 .acquire,
        .act 2 (.answer certificate), .act 2 .read, .act 2 (.answer key), .act 2 .read,
        .act 2 .publish]
    ∃ shared, (new (.fetched source)).run? events = some shared ∧
      source.Loads [certificate, key] shared.material := by
  intro source answer certificate key events
  have possible : ((new (.fetched source)).run? events).isSome = true := by decide +kernel
  obtain ⟨shared, run⟩ := Option.isSome_iff_exists.mp possible
  exact ⟨shared, run, (exclusive_of_run source events shared run).2.1⟩

end RequestSigning.SharedRetriever
