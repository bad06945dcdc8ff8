import RequestSigning.Der.Oid
set_option autoImplicit false

namespace RequestSigning.Certificate

open Der

structure Extension where
  type : Oid
  critical : Bool
  value : Bytes
  deriving Repr, DecidableEq

/-- An extension that is not critical does not say so. -/
def Extension.encode (extension : Extension) : Bytes :=
  encodeSequence
    [extension.type.encode, if extension.critical then Element.encode ⟨Tag.boolean, [0xFF]⟩ else [],
      Element.encode ⟨Tag.octetString, extension.value⟩]

def Extension.read : Reader Extension :=
  Reader.nested Tag.sequence do
    return ⟨← Oid.read, (← Reader.optional Tag.boolean Reader.boolean).getD false,
      ← Reader.octetString⟩

def encodeExtensions (extensions : List Extension) : Bytes :=
  Element.encode ⟨Tag.sequence, extensions.flatMap Extension.encode⟩

def readExtensions : Reader (List Extension) :=
  Reader.members Tag.sequence Extension.read

end RequestSigning.Certificate
