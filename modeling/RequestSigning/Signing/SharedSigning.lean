import RequestSigning.Credential.SharedRetriever
set_option autoImplicit false

namespace RequestSigning

open Credential Http Signing

/-- A request to sign, with the signer's configuration and the key id that its user gives. -/
structure SignCall where
  config : Config
  keyId : String
  request : Request

namespace SignCall

/-- What is answered where this material is loaded. -/
def provider (call : SignCall) (material : Material) : KeyProvider :=
  .ofMaterial material call.keyId

/-- Signs at one moment, with this material. -/
def sign (call : SignCall) (material : Material) : Except Error Unit × Request :=
  Signer.sign ⟨some (call.provider material), call.config⟩ call.request

end SignCall

/-- What a call of sign does, one step after another. -/
inductive SignAction where
  | start
  /-- The body is asked for what comes next. -/
  | poll
  | askKey
  | askKeyId

/-- Where a call of sign stands. -/
inductive SignStage where
  | idle
  /-- The body was taken out of the request; `seen` has been read of it, and `rest` has not. -/
  | reading (request : Request) (seen : Bytes) (rest : Body)
  | prepared (names : List String) (request : Request)
  | signed (names : List String) (signature : Bytes) (request : Request)
  | returned (result : Except Error Unit) (request : Request)

namespace SignStage

def first (call : SignCall) : SignStage :=
  if call.config.signsBody call.request then
    reading { call.request with body := [] } [] call.request.body
  else prepared (call.config.names false) call.request

/-- The headers of the body are written, or its failure is told. -/
def ofInstalled (names : List String) : Except Error Unit × Request → SignStage
  | (.error error, request) => returned (.error error) request
  | (.ok (), request) => prepared names request

def afterFrame (names : List String) (request : Request) (seen : Bytes) : Body → SignStage
  | .data bytes :: rest => reading request (seen ++ bytes) rest
  | .pending :: rest => reading request seen rest
  | .trailers :: rest => reading request seen rest
  | .failure text :: _ =>
    ofInstalled names (installBodyDigest { request with body := [.failure text] })
  | [] => ofInstalled names (installBodyDigest { request with body := .ofBytes seen })

def afterKey (provider : KeyProvider) (names : List String) (request : Request) : SignStage :=
  match computeSignature (some provider) (signingString request names) with
  | .error error => returned (.error error) request
  | .ok signature => signed names signature request

def afterKeyId (provider : KeyProvider) (names : List String) (signature : Bytes)
    (request : Request) : SignStage :=
  match authorize (some provider) names signature request with
  | .error error => returned (.error error) request
  | .ok request => returned (.ok ()) request

/-- The next stage, if it is the time for the action. The key and the key id are asked for one
after the other, each of the material that there is then. -/
def step? (call : SignCall) (material : Material) : SignStage → SignAction → Option SignStage
  | idle, .start => some (first call)
  | reading request seen rest, .poll =>
    some (afterFrame (call.config.names true) request seen rest)
  | prepared names request, .askKey => some (afterKey (call.provider material) names request)
  | signed names signature request, .askKeyId =>
    some (afterKeyId (call.provider material) names signature request)
  | _, _ => none

end SignStage

/-- A retriever, whose calls of refresh have stages of their own, with any number of calls of
sign that use what it has. -/
structure SharedSigning where
  shared : SharedRetriever
  stages : Nat → SignStage

namespace SharedSigning

inductive Event where
  | credentials (event : SharedRetriever.Event)
  | sign (call : Nat) (action : SignAction)

def new (source : Source) : SharedSigning :=
  ⟨.new source, fun _ => .idle⟩

/-- The next state, if the event can happen. -/
def step? (calls : Nat → SignCall) (signing : SharedSigning) : Event → Option SharedSigning
  | .credentials event => (signing.shared.step? event).map fun shared => { signing with shared }
  | .sign call action =>
    ((signing.stages call).step? (calls call) signing.shared.material action).map fun stage =>
      { signing with stages := fun other => if other = call then stage else signing.stages other }

def run? (calls : Nat → SignCall) (signing : SharedSigning) (events : List Event) :
    Option SharedSigning :=
  events.foldlM (step? calls) signing

end SharedSigning

end RequestSigning
