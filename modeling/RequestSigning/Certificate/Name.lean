import RequestSigning.Der.Oid
set_option autoImplicit false

namespace RequestSigning.Certificate

open Der

structure NameAttribute where
  type : Oid
  value : Element
  deriving Repr, DecidableEq

def NameAttribute.encode (entry : NameAttribute) : Bytes :=
  encodeSequence [entry.type.encode, entry.value.encode]

def NameAttribute.read : Reader NameAttribute :=
  Reader.nested Tag.sequence do return ⟨← Oid.read, ← Reader.any⟩

/-- The attributes of one step of a name, as a set. -/
abbrev RelativeName := List NameAttribute

/-- The order of the members of a set: by encoding. -/
def NameAttribute.le (left right : NameAttribute) : Bool :=
  Bytes.compare left.encode right.encode != .gt

/-- The members in order, unless one occurs twice. -/
def RelativeName.ofList? (attributes : List NameAttribute) : Option RelativeName :=
  let sorted := attributes.mergeSort NameAttribute.le
  if sorted.Nodup then some sorted else none

def RelativeName.encode (name : RelativeName) : Bytes :=
  Element.encode ⟨Tag.set, name.flatMap NameAttribute.encode⟩

def RelativeName.read : Reader RelativeName := do
  RelativeName.ofList? (← Reader.members Tag.set NameAttribute.read)

abbrev Name := List RelativeName

def Name.encode (name : Name) : Bytes :=
  Element.encode ⟨Tag.sequence, name.flatMap RelativeName.encode⟩

def Name.read : Reader Name :=
  Reader.members Tag.sequence RelativeName.read

end RequestSigning.Certificate
