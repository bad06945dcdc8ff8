import RequestSigning.CommandLine.Setting
import RequestSigning.Text.Terminal
set_option autoImplicit false

namespace RequestSigning.CommandLine

/-- Why a text is no number of seconds. -/
inductive NumberFault where
  | empty
  | digit
  | tooLarge
  deriving Repr, DecidableEq

def NumberFault.message : NumberFault → String
  | empty => "cannot parse integer from empty string"
  | digit => "invalid digit found in string"
  | tooLarge => "number too large to fit in target type"

/-- The greatest number that is read. -/
def maxNumber : Nat := 0xFFFFFFFFFFFFFFFF

/-- One more decimal digit. -/
def appendDigit (number : Nat) (c : Char) : Except NumberFault Nat :=
  if c.isDigit then
    let number := number * 10 + (c.toNat - 48)
    if number ≤ maxNumber then .ok number else .error .tooLarge
  else .error .digit

/-- Decimal digits, with a plus sign before them or not. -/
def readNumber (text : String) : Except NumberFault Nat :=
  match text.toList with
  | [] => .error .empty
  | ['+'] => .error .digit
  | '+' :: digits => digits.foldlM appendDigit 0
  | digits => digits.foldlM appendDigit 0

/-- Which headers a signature covers. -/
inductive Profile where
  | default
  | delegation
  deriving Repr, DecidableEq

def Profile.ofText? : String → Option Profile
  | "default" => some default
  | "delegation" => some delegation
  | _ => none

/-- Why a command line cannot be understood. -/
inductive UsageFault where
  | unexpectedArgument (argument : String)
  | missingValue (setting : Setting)
  | invalidValue (setting : Setting) (value : String)
  | invalidNumber (setting : Setting) (value : String) (fault : NumberFault)
  | unexpectedValue (switch value : String)
  | repeated (setting : Setting)
  | conflict (setting rival : Setting)
  | missingRequired (settings : List Setting)
  deriving Repr, DecidableEq

namespace UsageFault

/-- What was given is told without the control characters in it. -/
def message : UsageFault → String
  | unexpectedArgument argument => s!"unexpected argument '{Terminal.plain argument}' found"
  | missingValue setting => s!"a value is required for '{setting.text}' but none was supplied"
  | invalidValue setting value =>
    s!"invalid value '{Terminal.plain value}' for '{setting.text}'"
  | invalidNumber setting value fault =>
    s!"invalid value '{Terminal.plain value}' for '{setting.text}': {fault.message}"
  | unexpectedValue switch value =>
    s!"unexpected value '{Terminal.plain value}' for '{switch}' found; no more were expected"
  | repeated setting => s!"the argument '{setting.text}' cannot be used multiple times"
  | conflict setting rival => s!"the argument '{setting.text}' cannot be used with '{rival.text}'"
  | missingRequired settings =>
    "the following required arguments were not provided:" ++
      String.join (settings.map fun setting => s!"\n  {setting.text}")

end UsageFault

/-- Whether a setting can have the value. -/
def Setting.check (setting : Setting) (value : String) : Except UsageFault Unit :=
  match setting with
  | .certificateFile | .privateKeyFile =>
    if value = "" then .error (.missingValue setting) else .ok ()
  | .timeoutSecs =>
    match readNumber value with
    | .ok _ => .ok ()
    | .error fault => .error (.invalidNumber setting value fault)
  | .signer =>
    if (Profile.ofText? value).isSome then .ok ()
    else if value = "" then .error (.missingValue setting)
    else .error (.invalidValue setting value)
  | _ => .ok ()

end RequestSigning.CommandLine
