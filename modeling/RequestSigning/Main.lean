import Std.Time.DateTime.Timestamp
import RequestSigning.CommandLine.Outcome
set_option autoImplicit false

namespace RequestSigning.CommandLine

/-- The number of a system's error, which may come with a minus sign. -/
def errorNumber (code : UInt32) : Nat :=
  min code.toNat (0 - code).toNat

/-- The system's own error as a fault of a file. -/
def FileFault.ofSystem : IO.Error → FileFault
  | .noFileOrDirectory .. => notFound
  | .permissionDenied .. => notPermitted
  | .inappropriateType _ code _ =>
    if errorNumber code = isDirectory.number then isDirectory else notDirectory
  | .invalidArgument _ code details =>
    if errorNumber code = nameTooLong.number then nameTooLong else ⟨details, errorNumber code⟩
  | error => ⟨toString error, 0⟩

def readNamed (name : String) : IO (String × Except FileFault Bytes) := do
  try
    return (name, .ok (← IO.FS.readBinFile name).toList)
  catch error =>
    return (name, .error (.ofSystem error))

def readVariables : IO (List (String × String)) := do
  let names := Setting.all.filterMap Setting.variableName?
  let found ← names.mapM fun name => return (← IO.getEnv name).map ((name, ·))
  return found.filterMap id

end RequestSigning.CommandLine

open RequestSigning RequestSigning.CommandLine in
def main (arguments : List String) : IO UInt32 := do
  let environment ← readVariables
  let names := match Options.read (environment.lookup ·) arguments with
    | .ok options => options.files
    | .error _ => []
  let files ← names.mapM readNamed
  let outcome := (Outcome.run (fun _ => Client.offline) {
    environment := (environment.lookup ·)
    file := fun name => (files.lookup name).getD (.error .notFound)
    now := (← Std.Time.Timestamp.now).toSecondsSinceUnixEpoch.val.toNat } arguments).run ()
  IO.print outcome.1.output
  IO.eprint outcome.1.complaint
  return outcome.1.exitCode
