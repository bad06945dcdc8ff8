import RequestSigning.Http.Method
import RequestSigning.Http.Uri.Authority
import RequestSigning.Http.Uri.PathAndQuery
set_option autoImplicit false

namespace RequestSigning.Http

def isSchemeChar (c : Char) : Bool :=
  c.isAlphanum || "+-.~".toList.contains c

/-- `http` and `https` are kept in lower case, and others as they are written. -/
structure Scheme where
  text : String
  valid : text.toList.all isSchemeChar = true
  deriving DecidableEq

/-- A request's address: a path or an asterisk, an authority alone, or all with a scheme. -/
inductive Uri where
  | originForm (target : PathAndQuery)
  | authorityForm (authority : Authority)
  | absoluteForm (scheme : Scheme) (authority : Authority) (target : PathAndQuery)
  deriving DecidableEq

namespace Uri

/-- The longest address that is read, in bytes. -/
def maxLength : Nat := 65534

def maxSchemeLength : Nat := 64

def scheme? (chars : List Char) : Option Scheme :=
  if h : (String.ofList chars).toList.all isSchemeChar = true then some ⟨String.ofList chars, h⟩ else none

def httpScheme : Scheme := ⟨"http", by decide⟩

def httpsScheme : Scheme := ⟨"https", by decide⟩

/-- The scheme before the first colon, if two slashes follow it, and what follows those. -/
def splitScheme (bytes : Bytes) : Except UriFault (Option (Scheme × Bytes)) :=
  let chars := latin bytes
  if (chars.take 7).map Char.toLower = "http://".toList then .ok (some (httpScheme, bytes.drop 7))
  else if (chars.take 8).map Char.toLower = "https://".toList then
    .ok (some (httpsScheme, bytes.drop 8))
  else
    let name := chars.takeWhile isSchemeChar
    if 3 < bytes.length ∧ (chars.drop name.length).take 3 = "://".toList then
      if maxSchemeLength < name.length then .error .schemeTooLong
      else .ok ((scheme? name).map fun scheme => (scheme, bytes.drop (name.length + 3)))
    else .ok none

def isAuthorityEnd (c : Char) : Bool :=
  c == '/' || c == '?' || c == '#'

/-- The authority at the front, and what follows it. -/
def splitAuthority (bytes : Bytes) : Except UriFault (Authority × Bytes) :=
  let chars := (latin bytes).takeWhile (! isAuthorityEnd ·)
  (Authority.parse chars).map fun authority => (authority, bytes.drop chars.length)

def parseAbsolute (scheme : Scheme) (bytes : Bytes) : Except UriFault Uri :=
  if bytes = [] then .error .empty
  else
    match splitAuthority bytes with
    | .error fault => .error fault
    | .ok (authority, rest) =>
      if authority.text = "" then .error .invalidFormat
      else (PathAndQuery.parse rest).map (.absoluteForm scheme authority)

/-- An authority alone; `fault` is what is wrong with anything after it. -/
def parseAuthority (fault : UriFault) (bytes : Bytes) : Except UriFault Uri :=
  match splitAuthority bytes with
  | .error fault => .error fault
  | .ok (authority, rest) => if rest = [] then .ok (.authorityForm authority) else .error fault

def parse (bytes : Bytes) : Except UriFault Uri :=
  if maxLength < bytes.length then .error .tooLong
  else
    match bytes with
    | [] => .error .empty
    | [b] =>
      if b = 47 then .ok (.originForm .root)
      else if b = 42 then .ok (.originForm .asterisk)
      else parseAuthority .invalidCharacter bytes
    | b :: _ =>
      if b = 47 then (PathAndQuery.parse bytes).map .originForm
      else
        match splitScheme bytes with
        | .error fault => .error fault
        | .ok none => parseAuthority .invalidFormat bytes
        | .ok (some (scheme, rest)) => parseAbsolute scheme rest

def target? : Uri → Option PathAndQuery
  | .originForm target => some target
  | .authorityForm _ => none
  | .absoluteForm _ _ target => some target

def authority? : Uri → Option Authority
  | .originForm _ => none
  | .authorityForm authority => some authority
  | .absoluteForm _ authority _ => some authority

/-- The host, where there is one and it is not empty. -/
def host? (uri : Uri) : Option String :=
  (uri.authority?.map Authority.host).filter (· ≠ "")

def hasScheme : Uri → Bool
  | .absoluteForm .. => true
  | _ => false

/-- A path and query, with the root for an empty path. -/
def targetText (target : PathAndQuery) : String :=
  (if target.path = "" then "/" else target.path) ++ ((target.query.map ("?" ++ ·)).getD "")

def text : Uri → String
  | .originForm target => targetText target
  | .authorityForm authority => authority.text
  | .absoluteForm scheme authority target =>
    scheme.text ++ "://" ++ authority.text ++ targetText target

end Uri

end RequestSigning.Http
