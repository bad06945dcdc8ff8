import RequestSigning.CommandLine.Setting
import RequestSigning.Text.Terminal
set_option autoImplicit false

namespace RequestSigning.CommandLine

namespace Setting

/-- What a setting is for, where its name does not say it. -/
def purpose? : Setting → Option String
  | header => some "Extra request header as \x60name:value\x60; may be repeated"
  | excludeBody =>
    some "Only hash the body when the request carries \x60x-nosql-hash-body: true\x60"
  | _ => none

/-- The value without the setting. -/
def default? : Setting → Option String
  | timeoutSecs => some "10"
  | method => some "GET"
  | signer => some "default"
  | _ => none

/-- A secret is not shown. -/
def isSecret (setting : Setting) : Bool :=
  setting == passphrase

def explanation (environment : String → Option String) (setting : Setting) : String :=
  let source := setting.variableName?.map fun name =>
    let value := Terminal.plain ((environment name).getD "")
    if setting.isSecret then s!"[env: {name}]" else s!"[env: {name}={value}]"
  let default := setting.default?.map fun value => s!"[default: {value}]"
  let values := if setting = signer then some "[possible values: default, delegation]" else none
  " ".intercalate (setting.purpose?.toList ++ source.toList ++ default.toList ++ values.toList)

end Setting

/-- How the command is used. -/
def helpText (environment : String → Option String) : String :=
  let entry (name explanation : String) : String := s!"  {name}\n          {explanation}"
  "\n".intercalate ([
    "Sign an HTTP request with an X.509/RSA identity and print its headers",
    "",
    "Usage: iam-sign [OPTIONS] --key-id <KEY_ID> --url <URL>",
    "",
    "Options:"] ++
    (Setting.all.map fun setting =>
      entry s!"    {setting.text}" (setting.explanation environment)) ++
    [entry "-h, --help" "Print help"])

end RequestSigning.CommandLine
