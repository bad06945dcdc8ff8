import RequestSigning.Der.Oid
import RequestSigning.Rsa.Key
set_option autoImplicit false

namespace RequestSigning.Rsa

open Der

/-- 1.2.840.113549.1.1.1 -/
def encryptionOid : Oid :=
  ⟨[0x2a, 0x86, 0x48, 0x86, 0xf7, 0x0d, 0x01, 0x01, 0x01]⟩

def nullElement : Element :=
  ⟨Tag.null, []⟩

/-- RSA encryption, whose parameters are NULL. -/
def encryptionAlgorithm : Algorithm :=
  ⟨encryptionOid, some nullElement⟩

namespace PrivateKey

/-- The nine numbers of a two-prime key. The last three can be computed from the others, and
are not kept. -/
def readNumbers : Reader KeyNumbers :=
  Reader.nested Tag.sequence do
    let version ← Reader.unsigned 1
    if version ≠ 0 then failure
    let modulus ← Reader.natural
    let publicExponent ← Reader.natural
    let privateExponent ← Reader.natural
    let p ← Reader.natural
    let q ← Reader.natural
    let _ ← Reader.natural
    let _ ← Reader.natural
    let _ ← Reader.natural
    return ⟨modulus, publicExponent, privateExponent, p, q⟩

/-- The key of a PKCS#1 encoding, if it is valid. -/
def ofPkcs1? (bytes : Bytes) : Option PrivateKey := do
  let numbers ← readNumbers.ofInput bytes
  if valid : numbers.IsValid then some ⟨numbers, valid⟩ else none

/-- Fields that nobody reads: each is constructed, context-specific, and holds one element. -/
def skipAttributes : (limit : Nat) → Bytes → Option Unit
  | 0, bytes => if bytes = [] then some () else none
  | limit + 1, bytes =>
    if bytes = [] then some ()
    else
      match Element.read bytes with
      | none => none
      | some (element, rest) =>
        if Tag.isContextSpecific element.tag ∧ Tag.isConstructed element.tag ∧
            (Reader.any.whole element.content).isSome then
          skipAttributes limit rest
        else none

/-- What a PKCS#8 container holds, with the algorithm it is for. -/
def readContainer : Reader (Algorithm × Bytes) :=
  Reader.nested Tag.sequence do
    let version ← Reader.unsigned 1
    if 1 < version then failure
    let algorithm ← Algorithm.read
    let key ← Reader.octetString
    let publicKey ← Reader.implicitBitString 1
    if (publicKey.map (·.unused)).getD 0 ≠ 0 then failure
    if publicKey.isSome ≠ (version = 1) then failure
    let rest ← get
    set ([] : Bytes)
    let _ ← (skipAttributes rest.length rest : Option Unit)
    return (algorithm, key)

/-- The key of a PKCS#8 encoding, if it is valid. -/
def ofPkcs8? (bytes : Bytes) : Option PrivateKey := do
  let (algorithm, key) ← readContainer.ofInput bytes
  if algorithm = encryptionAlgorithm then ofPkcs1? key else none

/-- The PKCS#8 container of the content of an RSA key. -/
def encodeContainer (key : Bytes) : Bytes :=
  encodeSequence [encodeUnsigned 0, encryptionAlgorithm.encode, Element.encode ⟨Tag.octetString, key⟩]

end PrivateKey

end RequestSigning.Rsa
