import RequestSigning.CommandLine.Help
import RequestSigning.CommandLine.Options
import RequestSigning.CommandLine.SignedRequest
import RequestSigning.Credential.Retriever
set_option autoImplicit false

namespace RequestSigning.CommandLine

open Http

/-- What a run finds around it. -/
structure Surroundings where
  environment : String → Option String
  file : String → Except FileFault Bytes
  now : UnixTime

/-- How a run ends. -/
inductive Outcome where
  | signed (request : SignedRequest)
  | help (text : String)
  | failed (failure : Failure)
  | misused (fault : UsageFault)
  deriving Repr, DecidableEq

namespace Options

/-- Loads the credentials once. -/
def load {σ : Type} (options : Options) (network : Client → Transport σ)
    (file : String → Except FileFault Bytes) :
    StateM σ (Except Failure Credential.Material) := do
  match options.source file with
  | .error failure => return .error failure
  | .ok source =>
    let client := Client.withTimeout {} (options.timeoutSecs * 1000)
    let (result, retriever) ← (Retriever.new source).refresh (network client)
    match result with
    | .error error => return .error (.during "loading certificate material" error)
    | .ok () => return .ok retriever.material

/-- Signs the request with the credentials. -/
def sign (options : Options) (material : Credential.Material) (now : UnixTime) :
    Except Failure SignedRequest := do
  let request ← options.request now
  let signer : Signer := { provider := some (.ofMaterial material options.keyId), config := options.config }
  match signer.sign request with
  | (.error error, _) => throw (.during "signing request" error)
  | (.ok (), signed) => return .ofRequest signed (signer.expiration now)

end Options

namespace Outcome

def run {σ : Type} (network : Client → Transport σ) (surroundings : Surroundings)
    (arguments : List String) : StateM σ Outcome := do
  match Options.read surroundings.environment arguments with
  | .error .helpWanted => return help (helpText surroundings.environment)
  | .error (.misused fault) => return misused fault
  | .ok options =>
    match ← options.load network surroundings.file with
    | .error failure => return failed failure
    | .ok material =>
      match options.sign material surroundings.now with
      | .error failure => return failed failure
      | .ok request => return signed request

def exitCode : Outcome → UInt32
  | signed _ => 0
  | help _ => 0
  | failed _ => 1
  | misused _ => 2

/-- What is printed, each part with a line end of its own. -/
def output : Outcome → String
  | signed request => request.text ++ "\n"
  | help text => text ++ "\n"
  | _ => ""

/-- What is complained of. -/
def complaint : Outcome → String
  | failed failure => failure.text ++ "\n"
  | misused fault => s!"error: {fault.message}\n\nFor more information, try '--help'.\n"
  | _ => ""

end Outcome

end RequestSigning.CommandLine
