import RequestSigning.Text.Utf8
set_option autoImplicit false

namespace RequestSigning.Http

/-- The characters of a token. -/
def isTokenChar (c : Char) : Bool :=
  c.isAlphanum || "!#$%&'*+-.^_`|~".toList.contains c

/-- The characters of bytes that are all ASCII; other bytes give characters that are not. -/
def latin (bytes : Bytes) : List Char :=
  bytes.map fun b => Char.ofNat b.toNat

/-- A request method: any non-empty token, in its own case. -/
structure Method where
  text : String
  nonempty : text ≠ ""
  token : text.toList.all isTokenChar = true
  deriving DecidableEq

namespace Method

def ofText? (text : String) : Option Method :=
  if h : text ≠ "" ∧ text.toList.all isTokenChar = true then some ⟨text, h.1, h.2⟩ else none

def ofBytes? (bytes : Bytes) : Option Method :=
  ofText? (String.ofList (latin bytes))

def get : Method := ⟨"GET", by decide, by decide⟩
def post : Method := ⟨"POST", by decide, by decide⟩
def put : Method := ⟨"PUT", by decide, by decide⟩
def patch : Method := ⟨"PATCH", by decide, by decide⟩

end Method

end RequestSigning.Http
