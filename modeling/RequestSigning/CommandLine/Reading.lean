import RequestSigning.CommandLine.Given
set_option autoImplicit false

namespace RequestSigning.CommandLine

/-- What an argument is by its form alone. -/
inductive Word where
  | endOfSettings
  | long (name : String) (attached : Option String)
  | short (letter : Char)
  | plain (text : String)
  deriving Repr, DecidableEq

/-- A single dash is a plain word. -/
def Word.ofText (text : String) : Word :=
  match text.toList with
  | ['-', '-'] => endOfSettings
  | '-' :: '-' :: rest =>
    long (String.ofList (rest.takeWhile (· ≠ '=')))
      ((rest.dropWhile (· ≠ '=')).tail?.map String.ofList)
  | '-' :: letter :: _ => short letter
  | _ => plain text

/-- Why nothing is to be run. -/
inductive Refusal where
  | helpWanted
  | misused (fault : UsageFault)
  deriving Repr, DecidableEq

/-- What is known after some arguments. The last setting is open as long as nothing after it
has been read, so that its value is looked at only when another setting or the end is found. -/
structure Reading where
  given : Given
  opened : Option (Setting × Option String)
  deriving Repr, DecidableEq

namespace Reading

def start : Reading := ⟨⟨[]⟩, none⟩

/-- Takes the open setting with its value. -/
def close (reading : Reading) : Except Refusal Given :=
  match reading.opened with
  | none => .ok reading.given
  | some (setting, none) => .error (.misused (.missingValue setting))
  | some (setting, some value) => (reading.given.add setting value).mapError .misused

def unexpected {α : Type} (argument : String) : Except Refusal α :=
  .error (.misused (.unexpectedArgument argument))

/-- Help is wanted, if what comes before can be understood. -/
def askHelp (reading : Reading) : Except Refusal Reading := do
  let _ ← reading.close
  throw .helpWanted

def readLong (reading : Reading) (name : String) (attached : Option String) :
    Except Refusal Reading :=
  match Setting.named? name with
  | some setting =>
    match setting.valueName?, attached with
    | some _, none => do return ⟨← reading.close, some (setting, none)⟩
    | some _, some value => do
      let given ← reading.close
      return ⟨← (given.add setting value).mapError .misused, none⟩
    | none, none => do
      let given ← reading.close
      return ⟨← (given.add setting "true").mapError .misused, none⟩
    | none, some value => .error (.misused (.unexpectedValue setting.text value))
  | none =>
    if name = "help" then
      match attached with
      | none => reading.askHelp
      | some value => .error (.misused (.unexpectedValue "--help" value))
    else unexpected ("--" ++ name)

/-- A plain word is the value of the setting before it. -/
def readPlain (reading : Reading) (text : String) : Except Refusal Reading :=
  match reading.opened with
  | some (setting, none) => .ok { reading with opened := some (setting, some text) }
  | _ => unexpected text

/-- Nothing may follow the end of the settings. -/
def readAll (reading : Reading) : List String → Except Refusal Given
  | [] => reading.close
  | argument :: later =>
    match Word.ofText argument with
    | .endOfSettings =>
      match later with
      | [] => reading.close
      | extra :: _ => unexpected extra
    | .long name attached => do (← reading.readLong name attached).readAll later
    | .short letter => do
      let next ← if letter = 'h' then reading.askHelp
        else unexpected (String.ofList ['-', letter])
      next.readAll later
    | .plain text => do (← reading.readPlain text).readAll later

end Reading

/-- The settings of a command line and an environment. That two rule each other out comes
before that some are missing. -/
def Given.read (environment : String → Option String) (arguments : List String) :
    Except Refusal Given := do
  let given ← Reading.start.readAll arguments
  let given ← (given.addVariables environment).mapError .misused
  match given.conflict?, given.missing with
  | some fault, _ => throw (.misused fault)
  | none, [] => return given
  | none, missing => throw (.misused (.missingRequired missing))

end RequestSigning.CommandLine
