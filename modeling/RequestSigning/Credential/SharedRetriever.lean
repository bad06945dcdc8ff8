import RequestSigning.Credential.Retriever
set_option autoImplicit false

namespace RequestSigning

open Credential

/-- What a call of refresh does, one step after another. -/
inductive RefreshAction where
  | start
  | acquire
  /-- The GET that the call waits for is answered. -/
  | answer (response : Except Error Response)
  /-- What was answered is looked at and read. -/
  | read
  | publish
  | fail
  | release
  /-- The call is given up while it waits. -/
  | abandon

/-- Where a call of refresh stands. -/
inductive RefreshStage where
  | idle
  | waiting
  | awaitingCertificate
  | certificateAnswered (response : Except Error Response)
  | awaitingKey (url : String) (certificate : Loaded Certificate)
  | keyAnswered (url : String) (certificate : Loaded Certificate)
      (response : Except Error Response)
  | loaded (result : Except Error Material)
  | settled (result : Except Error Unit)
  | returned (result : Except Error Unit)
  | abandoned

namespace RefreshStage

/-- Nothing is fetched for credentials that are part of the configuration. -/
def first : Source → RefreshStage
  | .fixed source => loaded source.load
  | .fetched _ => awaitingCertificate

def ofProgress : UrlSource.Progress → RefreshStage
  | .awaitingKey url certificate => awaitingKey url certificate
  | .finished result => loaded result

/-- Whether the call has the lock. -/
def holdsLock : RefreshStage → Bool
  | idle | waiting | returned _ | abandoned => false
  | _ => true

/-- The next stage, if it is the time for the action. Nothing is read for a fixed source, and
only a call that waits can be given up. -/
def step? (source : Source) : RefreshStage → RefreshAction → Option RefreshStage
  | idle, .start => some waiting
  | waiting, .acquire => some (first source)
  | awaitingCertificate, .answer response => some (certificateAnswered response)
  | certificateAnswered response, .read =>
    match source with
    | .fixed _ => none
    | .fetched source => some (ofProgress (source.afterCertificate response))
  | awaitingKey url certificate, .answer response => some (keyAnswered url certificate response)
  | keyAnswered url certificate response, .read =>
    match source with
    | .fixed _ => none
    | .fetched source => some (loaded (source.afterKey url certificate response))
  | loaded (.ok _), .publish => some (settled (.ok ()))
  | loaded (.error error), .fail => some (settled (.error error))
  | settled result, .release => some (returned result)
  | waiting, .abandon => some abandoned
  | awaitingCertificate, .abandon => some abandoned
  | awaitingKey _ _, .abandon => some abandoned
  | _, _ => none

/-- The material that the action publishes. -/
def published? : RefreshStage → RefreshAction → Option Material
  | loaded (.ok material), .publish => some material
  | _, _ => none

end RefreshStage

/-- A retriever with any number of calls of refresh, which share a lock, and any number of
readers, each with what it has seen last. -/
structure SharedRetriever where
  retriever : Retriever
  holder : Option Nat
  stages : Nat → RefreshStage
  views : Nat → Material

namespace SharedRetriever

inductive Event where
  | act (call : Nat) (action : RefreshAction)
  | look (reader : Nat)

def new (source : Source) : SharedRetriever :=
  ⟨.new source, none, fun _ => .idle, fun _ => .empty⟩

def material (shared : SharedRetriever) : Material :=
  shared.retriever.material

/-- Who has the lock after an action. A call that waits for the lock has none to give back. -/
def holderAfter? (holder : Option Nat) (call : Nat) : RefreshAction → Option (Option Nat)
  | .acquire => if holder = none then some (some call) else none
  | .release => some none
  | .abandon => some (if holder = some call then none else holder)
  | _ => some holder

/-- The next state, if the event can happen. -/
def step? (shared : SharedRetriever) : Event → Option SharedRetriever
  | .look reader =>
    some { shared with
      views := fun other => if other = reader then shared.material else shared.views other }
  | .act call action => do
    let stage ← (shared.stages call).step? shared.retriever.source action
    let holder ← holderAfter? shared.holder call action
    return { shared with
      retriever :=
        match (shared.stages call).published? action with
        | some material => (shared.retriever.settle (.ok material)).2
        | none => shared.retriever
      holder
      stages := fun other => if other = call then stage else shared.stages other }

def run? (shared : SharedRetriever) (events : List Event) : Option SharedRetriever :=
  events.foldlM step? shared

end SharedRetriever

end RequestSigning
