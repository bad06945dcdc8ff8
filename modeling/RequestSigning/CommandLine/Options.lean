import RequestSigning.Bytes
import RequestSigning.CommandLine.Failure
import RequestSigning.CommandLine.Reading
import RequestSigning.Credential.Source
import RequestSigning.Signing.Signer
set_option autoImplicit false

namespace RequestSigning.CommandLine

open Http

/-- What a run is to do. -/
structure Options where
  certificateUrl : Option String := none
  certificateFile : Option String := none
  privateKeyUrl : Option String := none
  privateKeyFile : Option String := none
  passphrase : Option String := none
  keyId : String
  timeoutSecs : Nat := 10
  method : String := "GET"
  url : String
  headers : List String := []
  body : String := ""
  delegationToken : Option String := none
  profile : Profile := .default
  excludeBody : Bool := false
  deriving Repr, DecidableEq

namespace Options

/-- The options of settings among which none is missing. -/
def ofGiven (given : Given) : Options where
  certificateUrl := given.get? .certificateUrl
  certificateFile := given.get? .certificateFile
  privateKeyUrl := given.get? .privateKeyUrl
  privateKeyFile := given.get? .privateKeyFile
  passphrase := given.get? .passphrase
  keyId := (given.get? .keyId).getD ""
  timeoutSecs := ((given.get? .timeoutSecs).bind fun text => (readNumber text).toOption).getD 10
  method := (given.get? .method).getD "GET"
  url := (given.get? .url).getD ""
  headers := given.values .header
  body := (given.get? .body).getD ""
  delegationToken := given.get? .delegationToken
  profile := ((given.get? .signer).bind Profile.ofText?).getD .default
  excludeBody := given.has .excludeBody

def read (environment : String → Option String) (arguments : List String) :
    Except Refusal Options :=
  (Given.read environment arguments).map ofGiven

/-- The files that a run reads. -/
def files (options : Options) : List String :=
  options.certificateFile.toList ++ options.privateKeyFile.toList

def readFile (file : String → Except FileFault Bytes) (name : String) : Except Failure Bytes :=
  (file name).mapError fun fault => ⟨s!"reading {name}", [fault.message]⟩

/-- Where the credentials come from: all from addresses, or all from files. -/
def source (options : Options) (file : String → Except FileFault Bytes) :
    Except Failure Credential.Source := do
  let passphrase := options.passphrase.map Bytes.ofString
  match options.certificateUrl, options.certificateFile with
  | some url, _ =>
    if options.privateKeyFile.isSome then
      throw ⟨"--private-key-file can not be combined with --certificate-url", []⟩
    return .fetched (.new url options.privateKeyUrl passphrase)
  | none, none => throw ⟨"one of --certificate-url or --certificate-file is required", []⟩
  | none, some name =>
    if options.privateKeyUrl.isSome then
      throw ⟨"--private-key-url can not be combined with --certificate-file", []⟩
    let certificate ← readFile file name
    let privateKey ← options.privateKeyFile.mapM (readFile file)
    return .fixed { certificate, privateKey, passphrase }

def config (options : Options) : Signing.Config :=
  let config : Signing.Config := match options.profile with
    | .default => {}
    | .delegation => .delegation
  if options.excludeBody then config.withoutBody else config

def headerValue (text : String) : Except Failure HeaderValue :=
  match HeaderValue.ofText? text with
  | some value => .ok value
  | none => .error ⟨Error.headerValueText, []⟩

/-- A header in the form `name:value`, with or without white space around both. -/
def header (text : String) : Except Failure (HeaderName × HeaderValue) := do
  let name := text.toList.takeWhile (· ≠ ':')
  let some value := (text.toList.dropWhile (· ≠ ':')).tail?
    | throw ⟨s!"header {Quoted.quote text} is not name:value", []⟩
  let some name := HeaderName.ofBytes? (Utf8.encode (Blank.trim name))
    | throw ⟨"invalid HTTP header name", []⟩
  return (name, ← headerValue (String.ofList (Blank.trim value)))

def headersOf (options : Options) : Except Failure Headers :=
  options.headers.foldlM (fun headers text => do
    let (name, value) ← header text
    return headers.append name value) Headers.empty

/-- ASCII letters in upper case; all else as it is. -/
def uppercase (text : String) : String :=
  String.ofList (text.toList.map Char.toUpper)

/-- The request to sign; it gets a date where it has none. -/
def request (options : Options) (now : UnixTime) : Except Failure Request := do
  let some method := Method.ofBytes? (Bytes.ofString (uppercase options.method))
    | throw ⟨s!"invalid method {options.method}", ["invalid HTTP method"]⟩
  let uri ← (Uri.parse (Bytes.ofString options.url)).mapError fun fault =>
    ⟨"building request", [fault.message]⟩
  let headers ← options.headersOf
  let headers ← match options.delegationToken with
    | some token => do pure (headers.insert Signing.delegationToken (← headerValue token))
    | none => pure headers
  let headers ←
    if headers.contains .date then pure headers
    else do pure (headers.insert .date (← headerValue (DateTime.httpDate now)))
  return { method, uri, headers, body := Body.ofBytes (Bytes.ofString options.body) }

end Options

end RequestSigning.CommandLine
