import RequestSigning.Der.Element
set_option autoImplicit false

namespace RequestSigning.Der

/-- An INTEGER has at least one byte, and its first nine bits are not all alike. -/
def isShortestInteger : Bytes → Bool
  | [] => false
  | [_] => true
  | a :: b :: _ => !(a == 0 && b < 0x80) && !(a == 0xFF && 0x80 ≤ b)

/-- The content of the INTEGER of a natural number. -/
def unsignedContent (n : Nat) : Bytes :=
  let digits := Bytes.ofNat (Bytes.width n) n
  match digits with
  | [] => [0]
  | b :: _ => if b < 0x80 then digits else 0 :: digits

def unsigned? (content : Bytes) : Option Nat :=
  match content with
  | [] => none
  | b :: _ => if isShortestInteger content ∧ b < 0x80 then some (Bytes.toNat content) else none

/-- A BIT STRING: its bytes, and how many bits of the last one do not count. -/
structure BitString where
  unused : UInt8
  bytes : Bytes
  deriving Repr, DecidableEq

def BitString.content (bits : BitString) : Bytes :=
  bits.unused :: bits.bytes

def BitString.ofContent? : Bytes → Option BitString
  | [] => none
  | unused :: bytes =>
    if unused ≤ 7 ∧ (unused = 0 ∨ bytes ≠ []) then some ⟨unused, bytes⟩ else none

namespace Reader

/-- A natural number of at most `size` bytes. -/
def unsigned (size : Nat) : Reader Nat := do
  let n ← unsigned? (← content Tag.integer)
  if Bytes.width n ≤ size then return n else failure

/-- A natural number of any size. -/
def natural : Reader Nat := do
  unsigned? (← content Tag.integer)

def bitString : Reader BitString := do
  BitString.ofContent? (← content Tag.bitString)

def octetString : Reader Bytes :=
  content Tag.octetString

def boolean : Reader Bool := do
  match ← content Tag.boolean with
  | [0x00] => return false
  | [0xFF] => return true
  | _ => failure

/-- Passes over at most `limit` context-specific fields of lower numbers, and says whether
the field of the number comes next. -/
def contextFieldWithin (number : UInt8) : (limit : Nat) → Reader Bool
  | 0 => return false
  | limit + 1 => do
    match ← peek with
    | none => return false
    | some tag =>
      if ¬ Tag.isKnown tag then failure
      else if ¬ Tag.isContextSpecific tag ∨ number < Tag.number tag then return false
      else if Tag.number tag = number then return true
      else do
        let _ ← any
        contextFieldWithin number limit

/-- Passes over context-specific fields of lower numbers, and says whether the field of the
number comes next. As each takes up a byte at least, the length bounds their number. -/
def contextField (number : UInt8) : Reader Bool := do
  contextFieldWithin number ((← get).length + 1)

/-- An optional field under a tag around its own. -/
def explicit {α : Type} (number : UInt8) (reader : Reader α) : Reader (Option α) := do
  if ← contextField number then some <$> nested (Tag.explicit number) reader else return none

/-- An optional BIT STRING under a tag in the place of its own. -/
def implicitBitString (number : UInt8) : Reader (Option BitString) := do
  if ← contextField number then
    some <$> BitString.ofContent? (← content (Tag.implicit number))
  else return none

end Reader

def encodeSequence (parts : List Bytes) : Bytes :=
  Element.encode ⟨Tag.sequence, parts.flatten⟩

def encodeUnsigned (n : Nat) : Bytes :=
  Element.encode ⟨Tag.integer, unsignedContent n⟩

def encodeBitString (tag : UInt8) (bits : BitString) : Bytes :=
  Element.encode ⟨tag, bits.content⟩

end RequestSigning.Der
