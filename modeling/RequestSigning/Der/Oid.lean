import RequestSigning.Der.Value
set_option autoImplicit false

namespace RequestSigning.Der

/-- An object identifier as the bytes that encode it. -/
structure Oid where
  bytes : Bytes
  deriving Repr, DecidableEq

namespace Oid

/-- The arcs after the second. An arc is a 32 bit number in base 128, of at most five bytes;
the bits that a fifth byte pushes out of the 32 are lost. -/
def laterArcs (value : UInt32) (seen : Nat) : Bytes → Option (List UInt32)
  | [] => if seen = 0 then some [] else none
  | b :: rest =>
    if seen = 4 ∧ b &&& 0xF0 ≠ 0 then none
    else
      let value := value <<< 7 ||| (b &&& 0x7F).toUInt32
      if b < 0x80 then (laterArcs 0 0 rest).map (value :: ·) else laterArcs value (seen + 1) rest

/-- The first byte holds two arcs. -/
def arcsOf : Bytes → Option (List UInt32)
  | [] => none
  | b :: rest =>
    if b < 120 then
      (laterArcs 0 0 rest).map fun arcs => (b / 40).toUInt32 :: (b % 40).toUInt32 :: arcs
    else none

def ofContent? (content : Bytes) : Option Oid :=
  if 3 ≤ content.length ∧ content.length ≤ 39 ∧ (arcsOf content).isSome then some ⟨content⟩ else none

/-- The arcs in decimal, with dots between them. -/
def text (oid : Oid) : String :=
  ".".intercalate (((arcsOf oid.bytes).getD []).map fun arc => toString arc.toNat)

def encode (oid : Oid) : Bytes :=
  Element.encode ⟨Tag.objectIdentifier, oid.bytes⟩

def read : Reader Oid := do
  ofContent? (← Reader.content Tag.objectIdentifier)

end Oid

/-- An algorithm's identifier, and its parameters uninterpreted. -/
structure Algorithm where
  oid : Oid
  parameters : Option Element
  deriving Repr, DecidableEq

namespace Algorithm

def encode (algorithm : Algorithm) : Bytes :=
  encodeSequence [algorithm.oid.encode, (algorithm.parameters.map Element.encode).getD []]

def read : Reader Algorithm :=
  Reader.nested Tag.sequence do
    let oid ← Oid.read
    if ← Reader.atEnd then return ⟨oid, none⟩
    return ⟨oid, some (← Reader.any)⟩

end Algorithm

end RequestSigning.Der
