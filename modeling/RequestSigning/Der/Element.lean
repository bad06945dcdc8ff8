import RequestSigning.Bytes
set_option autoImplicit false

namespace RequestSigning.Der

/-- One tagged value with its content left uninterpreted. -/
structure Element where
  tag : UInt8
  content : Bytes
  deriving Repr, DecidableEq

namespace Tag

def boolean : UInt8 := 0x01
def integer : UInt8 := 0x02
def bitString : UInt8 := 0x03
def octetString : UInt8 := 0x04
def null : UInt8 := 0x05
def objectIdentifier : UInt8 := 0x06
def utcTime : UInt8 := 0x17
def generalizedTime : UInt8 := 0x18
def sequence : UInt8 := 0x30
def set : UInt8 := 0x31

/-- The context-specific tag of a number, for a value written without a tag of its own. -/
def implicit (number : UInt8) : UInt8 := 0x80 + number

/-- The context-specific tag of a number, around a value that keeps its own tag. -/
def explicit (number : UInt8) : UInt8 := 0xA0 + number

def isContextSpecific (tag : UInt8) : Bool :=
  tag &&& 0xC0 == 0x80

def isConstructed (tag : UInt8) : Bool :=
  tag &&& 0x20 != 0

def number (tag : UInt8) : UInt8 :=
  tag &&& 0x1F

/-- The universal types known here are never written in their other form, and no tag
number takes more than one byte. -/
def isKnown (tag : UInt8) : Bool :=
  if tag < 0x40 then
    [0x01, 0x02, 0x03, 0x04, 0x05, 0x06, 0x09, 0x0A, 0x0C, 0x12, 0x13, 0x14, 0x15, 0x16, 0x17,
      0x18, 0x1A, 0x1E, 0x30, 0x31].contains tag
  else number tag != 0x1F

end Tag

/-- The greatest length that is read. -/
def maxLength : Nat := 0xFFFFFFF

/-- The shortest form of a length. -/
def encodeLength (n : Nat) : Bytes :=
  if n < 128 then [UInt8.ofNat n]
  else UInt8.ofNat (128 + Bytes.width n) :: Bytes.ofNat (Bytes.width n) n

/-- A length is definite, in its shortest form and at most `maxLength`. -/
def readLength : Bytes → Option (Nat × Bytes)
  | [] => none
  | b :: rest =>
    if b < 128 then some (b.toNat, rest)
    else
      let size := b.toNat - 128
      let digits := rest.take size
      let n := Bytes.toNat digits
      if size ≤ 4 ∧ digits.length = size ∧ n ≤ maxLength ∧ 128 ≤ n ∧ Bytes.width n = size then
        some (n, rest.drop size)
      else none

namespace Element

def encode (element : Element) : Bytes :=
  element.tag :: encodeLength element.content.length ++ element.content

def read : Bytes → Option (Element × Bytes)
  | [] => none
  | tag :: rest =>
    if Tag.isKnown tag then
      match readLength rest with
      | none => none
      | some (length, rest) =>
        if length ≤ rest.length then some (⟨tag, rest.take length⟩, rest.drop length) else none
    else none

end Element

/-- Reads a value at the front of a byte string and leaves the rest. -/
abbrev Reader := StateT Bytes Option

namespace Reader

variable {α : Type}

/-- The value that takes up the whole byte string. -/
def whole (reader : Reader α) (bytes : Bytes) : Option α :=
  match reader.run bytes with
  | some (value, []) => some value
  | _ => none

/-- The value that takes up a whole input. One that is longer than `maxLength` is not read. -/
def ofInput (reader : Reader α) (input : Bytes) : Option α :=
  if input.length ≤ maxLength then reader.whole input else none

/-- The next element, which has any known tag. -/
def any : Reader Element :=
  Element.read

/-- The content of the next element, which has the given tag. -/
def content (tag : UInt8) : Reader Bytes := do
  let element ← any
  if element.tag = tag then return element.content else failure

/-- The next element, read as far as its end by `reader`. -/
def nested (tag : UInt8) (reader : Reader α) : Reader α := do
  let content ← content tag
  (whole reader content : Option α)

/-- Values one after another up to the end; at most `limit` of them. -/
def many (reader : Reader α) : (limit : Nat) → Bytes → Option (List α)
  | 0, bytes => if bytes = [] then some [] else none
  | limit + 1, bytes =>
    if bytes = [] then some []
    else
      match reader.run bytes with
      | none => none
      | some (value, rest) => (many reader limit rest).map (value :: ·)

/-- The values that the content of the next element consists of. As each takes up a byte
at least, the content's length bounds their number. -/
def members (tag : UInt8) (reader : Reader α) : Reader (List α) := do
  let content ← content tag
  (many reader content.length content : Option (List α))

def peek : Reader (Option UInt8) := do
  return (← get).head?

/-- A value that is present exactly if the next tag is the given one. -/
def optional (tag : UInt8) (reader : Reader α) : Reader (Option α) := do
  if (← peek) = some tag then some <$> reader else return none

def atEnd : Reader Bool := do
  return (← get).isEmpty

end Reader

end RequestSigning.Der
