import RequestSigning.Http.Uri.Fault
set_option autoImplicit false

namespace RequestSigning.Http

def isAuthorityChar (c : Char) : Bool :=
  c.isAlphanum || "!$&'()*+,-.:;=@[]_~%".toList.contains c

structure Authority where
  text : String
  valid : text.toList.all isAuthorityChar = true
  deriving DecidableEq

namespace Authority

/-- What follows the last `@`. -/
def hostAndPort (authority : Authority) : List Char :=
  (authority.text.toList.reverse.takeWhile (· ≠ '@')).reverse

/-- An address in brackets, brackets included, or all before the first colon. -/
def host (authority : Authority) : String :=
  match authority.hostAndPort with
  | '[' :: rest => String.ofList ('[' :: rest.takeWhile (· ≠ ']') ++ [']'])
  | chars => String.ofList (chars.takeWhile (· ≠ ':'))

/-- A number below 65536, with a plus sign or leading zeros or without. -/
def readPort (chars : List Char) : Option Nat :=
  let digits := match chars with | '+' :: digits => digits | digits => digits
  if digits ≠ [] ∧ digits.all Char.isDigit then
    let n := Nat.ofDigitChars 10 digits 0
    if n < 65536 then some n else none
  else none

/-- What follows the last colon of the whole, if it is a port. -/
def port? (authority : Authority) : Option Nat :=
  let reversed := authority.text.toList.reverse
  if reversed.contains ':' then readPort (reversed.takeWhile (· ≠ ':')).reverse else none

/-- What has been seen of an authority. A bracket that closes, and an at sign, start the
count of colons and the search for percent signs afresh. -/
structure Scan where
  colons : Nat
  opened : Bool
  closed : Bool
  percent : Bool
  atSignLast : Bool
  deriving Repr, DecidableEq

def Scan.initial : Scan := ⟨0, false, false, false, false⟩

/-- The most colons that an address in brackets and a port can have. -/
def maxColons : Nat := 8

def Scan.step (scan : Scan) (c : Char) : Except UriFault Scan :=
  if ¬ isAuthorityChar c then .error .invalidCharacter
  else if c = ':' then
    if maxColons ≤ scan.colons then .error .invalidAuthority
    else .ok { scan with colons := scan.colons + 1, atSignLast := false }
  else if c = '[' then
    if scan.percent || scan.opened then .error .invalidAuthority
    else .ok { scan with opened := true, atSignLast := false }
  else if c = ']' then
    if !scan.opened || scan.closed then .error .invalidAuthority
    else .ok { scan with closed := true, colons := 0, percent := false, atSignLast := false }
  else if c = '@' then .ok { scan with colons := 0, percent := false, atSignLast := true }
  else if c = '%' then .ok { scan with percent := true, atSignLast := false }
  else .ok { scan with atSignLast := false }

def Scan.isComplete (scan : Scan) : Bool :=
  scan.opened == scan.closed && scan.colons ≤ 1 && !scan.atSignLast && !scan.percent

def parse (chars : List Char) : Except UriFault Authority :=
  match chars.foldlM Scan.step Scan.initial with
  | .error fault => .error fault
  | .ok scan =>
    if ¬ scan.isComplete then .error .invalidAuthority
    else if h : (String.ofList chars).toList.all isAuthorityChar = true then .ok ⟨String.ofList chars, h⟩
    else .error .invalidCharacter

end Authority

end RequestSigning.Http
