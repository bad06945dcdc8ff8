import RequestSigning.Text.Base64
import RequestSigning.Text.Blank
import RequestSigning.Text.Utf8
set_option autoImplicit false

namespace RequestSigning

/-- A textual armour block. -/
structure Pem where
  tag : String
  headers : List (String × String)
  contents : Bytes
  deriving Repr, DecidableEq

namespace Pem

inductive Fault where
  | malformedFraming
  | missingBeginTag
  | missingEndTag
  | mismatchedTags (opening closing : String)
  | notUtf8 (fault : Utf8.Fault)
  | invalidData (fault : Base64.Fault)
  | invalidHeader (line : String)
  deriving Repr, DecidableEq

def Fault.message : Fault → String
  | .malformedFraming => "malformedframing"
  | .missingBeginTag => "missing BEGIN tag"
  | .missingEndTag => "missing END tag"
  | .mismatchedTags opening closing =>
    s!"mismatching BEGIN (\"{opening}\") and END (\"{closing}\") tags"
  | .notUtf8 fault => s!"invalid utf-8 value: {fault.message}"
  | .invalidData fault => s!"invalid data: {fault.message}"
  | .invalidHeader line => s!"invalid header: {line}"

/-- Five hyphens. -/
def dashes : Bytes := [45, 45, 45, 45, 45]

/-- Five hyphens, `BEGIN` and a space. -/
def beginMarker : Bytes := dashes ++ [66, 69, 71, 73, 78, 32]

/-- Five hyphens, `END` and a space. -/
def endMarker : Bytes := dashes ++ [69, 78, 68, 32]

/-- What follows the first place where the marker is found; `owed` is the part of it that
is still to come. A byte that does not fit is passed over, and the marker starts afresh
with the byte after it. -/
def skipPast (marker : Bytes) : (owed input : Bytes) → Option Bytes
  | [], input => some input
  | _ :: _, [] => none
  | m :: owed, b :: rest => skipPast marker (if b = m then owed else marker) rest

/-- What stands before the marker, and what after it. -/
def readUntil (marker input : Bytes) : Option (Bytes × Bytes) :=
  (skipPast marker marker input).map fun rest =>
    (input.take (input.length - (rest.length + marker.length)), rest)

/-- The parts of a block as they stand in the input. -/
structure Frame where
  opening : Bytes
  payload : Bytes
  closing : Bytes
  deriving Repr, DecidableEq

def isFrameBlank (b : UInt8) : Bool :=
  b == 32 || b == 9 || b == 10 || b == 13

/-- The first block. Nothing outside it is looked at. -/
def Frame.find? (input : Bytes) : Option Frame := do
  let (_, input) ← readUntil beginMarker input
  let (opening, input) ← readUntil dashes input
  let (payload, input) ← readUntil endMarker (input.dropWhile isFrameBlank)
  let (closing, _) ← readUntil dashes input
  return ⟨opening, payload, closing⟩

/-- Headers and data: an empty line ends the headers. -/
def Frame.split (frame : Frame) : Bytes × Bytes :=
  match readUntil [10, 10] frame.payload with
  | some parts => parts
  | none =>
    match readUntil [13, 10, 13, 10] frame.payload with
    | some parts => parts
    | none => ([], frame.payload)

/-- Lines without their ends. `line` is the current line, reversed. -/
def linesFrom (line : List Char) : List Char → List (List Char)
  | [] => if line = [] then [] else [line.reverse]
  | c :: rest =>
    if c = '\n' then
      (match line with | '\r' :: line => line.reverse | line => line.reverse) :: linesFrom [] rest
    else linesFrom (c :: line) rest

def lines (text : List Char) : List (List Char) :=
  linesFrom [] text

def readHeader (line : List Char) : Except Fault (String × String) :=
  match line.dropWhile (· ≠ ':') with
  | [] => .error (.invalidHeader (String.ofList line))
  | _ :: value =>
    .ok (String.ofList (Blank.trim (line.takeWhile (· ≠ ':'))), String.ofList (Blank.trim value))

def readText (bytes : Bytes) : Except Fault (List Char) :=
  (Utf8.decode bytes).mapError .notUtf8

def Frame.decode (frame : Frame) : Except Fault Pem := do
  let opening ← readText frame.opening
  if opening = [] then throw .missingBeginTag
  let closing ← readText frame.closing
  if closing = [] then throw .missingEndTag
  if opening ≠ closing then
    throw (.mismatchedTags (String.ofList opening) (String.ofList closing))
  let (headers, data) := frame.split
  let data ← readText data
  let contents ←
    (Base64.decode (Utf8.encode (data.filter (! Blank.isBlank ·)))).mapError Fault.invalidData
  let headers ← readText headers
  let headers ← (lines headers).mapM readHeader
  return ⟨String.ofList opening, headers, contents⟩

/-- The first block of the input. -/
def parse (input : Bytes) : Except Fault Pem :=
  match Frame.find? input with
  | none => .error .malformedFraming
  | some frame => frame.decode

/-- The value of the last header of that name. -/
def header? (pem : Pem) (key : String) : Option String :=
  (pem.headers.reverse.find? (·.1 = key)).map (·.2)

/-- Lines of 64 base64 characters. -/
def dataLines (contents : Bytes) : Bytes :=
  ((Base64.encode contents).chunks 64).flatMap (· ++ [10])

/-- Headers one to a line and an empty line after them; nothing where there are none. -/
def headerLines (headers : List (String × String)) : Bytes :=
  if headers = [] then []
  else headers.flatMap (fun (key, value) => Bytes.ofString key ++ [58, 32] ++ Bytes.ofString value ++ [10])
    ++ [10]

/-- The written form of a block. -/
def render (pem : Pem) : Bytes :=
  beginMarker ++ Bytes.ofString pem.tag ++ dashes ++ [10] ++ headerLines pem.headers ++
    dataLines pem.contents ++ endMarker ++ Bytes.ofString pem.tag ++ dashes ++ [10]

end Pem

end RequestSigning
