set_option autoImplicit false

namespace RequestSigning.CommandLine

/-- What can be set on the command line. -/
inductive Setting where
  | certificateUrl | certificateFile | privateKeyUrl | privateKeyFile | passphrase | keyId
  | timeoutSecs | method | url | header | body | delegationToken | signer | excludeBody
  deriving Repr, DecidableEq

namespace Setting

def all : List Setting :=
  [certificateUrl, certificateFile, privateKeyUrl, privateKeyFile, passphrase, keyId,
    timeoutSecs, method, url, header, body, delegationToken, signer, excludeBody]

theorem mem_all (setting : Setting) : setting ∈ all := by
  cases setting <;> decide

def name : Setting → String
  | certificateUrl => "certificate-url"
  | certificateFile => "certificate-file"
  | privateKeyUrl => "private-key-url"
  | privateKeyFile => "private-key-file"
  | passphrase => "passphrase"
  | keyId => "key-id"
  | timeoutSecs => "timeout-secs"
  | method => "method"
  | url => "url"
  | header => "header"
  | body => "body"
  | delegationToken => "delegation-token"
  | signer => "signer"
  | excludeBody => "exclude-body"

def named? (name : String) : Option Setting :=
  all.find? (·.name = name)

theorem named?_name (setting : Setting) : named? setting.name = some setting := by
  cases setting <;> decide

/-- What stands for the value where one is explained; a switch has no value. -/
def valueName? : Setting → Option String
  | certificateUrl => some "CERTIFICATE_URL"
  | certificateFile => some "CERTIFICATE_FILE"
  | privateKeyUrl => some "PRIVATE_KEY_URL"
  | privateKeyFile => some "PRIVATE_KEY_FILE"
  | passphrase => some "PASSPHRASE"
  | keyId => some "KEY_ID"
  | timeoutSecs => some "TIMEOUT_SECS"
  | method => some "METHOD"
  | url => some "URL"
  | header => some "HEADERS"
  | body => some "BODY"
  | delegationToken => some "DELEGATION_TOKEN"
  | signer => some "SIGNER"
  | excludeBody => none

/-- The setting as a message shows it. -/
def text (setting : Setting) : String :=
  match setting.valueName? with
  | some value => s!"--{setting.name} <{value}>"
  | none => s!"--{setting.name}"

/-- The environment variable for the value where the command line has none. -/
def variableName? : Setting → Option String
  | certificateUrl => some "IAM_CERTIFICATE_URL"
  | certificateFile => some "IAM_CERTIFICATE_FILE"
  | privateKeyUrl => some "IAM_PRIVATE_KEY_URL"
  | privateKeyFile => some "IAM_PRIVATE_KEY_FILE"
  | passphrase => some "IAM_KEY_PASSPHRASE"
  | keyId => some "IAM_KEY_ID"
  | timeoutSecs => some "IAM_FETCH_TIMEOUT_SECS"
  | _ => none

/-- The setting that may not be there as well. -/
def rival? : Setting → Option Setting
  | certificateUrl => some certificateFile
  | certificateFile => some certificateUrl
  | privateKeyUrl => some privateKeyFile
  | privateKeyFile => some privateKeyUrl
  | _ => none

def isRequired (setting : Setting) : Bool :=
  setting == keyId || setting == url

def isRepeatable (setting : Setting) : Bool :=
  setting == header

end Setting

end RequestSigning.CommandLine
