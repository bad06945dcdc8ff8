import RequestSigning.Cipher.Aes
import RequestSigning.Der.Oid
import RequestSigning.KeyDerivation.Scrypt
set_option autoImplicit false

namespace RequestSigning.Credential

open Der

/-- How a key is made of a password, with the length of the key where it is stated. -/
inductive KeyRecipe where
  | pbkdf2 (salt : Bytes) (iterations : Nat) (length : Option Nat) (hash : HashFunction)
  | scrypt (salt : Bytes) (cost : KeyDerivation.ScryptCost) (length : Option Nat)
  deriving Repr, DecidableEq

namespace KeyRecipe

def length? : KeyRecipe → Option Nat
  | pbkdf2 _ _ length _ => length
  | scrypt _ _ length => length

/-- A key of `size` bytes, unless another length is stated. -/
def derive? (recipe : KeyRecipe) (password : Bytes) (size : Nat) : Option Bytes :=
  if recipe.length?.getD size = size then
    match recipe with
    | pbkdf2 salt iterations _ hash => some (KeyDerivation.pbkdf2 hash password salt iterations size)
    | scrypt salt cost _ =>
      if cost.IsValid then some (KeyDerivation.scrypt password salt cost size) else none
  else none

/-- 1.2.840.113549.1.5.12 -/
def pbkdf2Oid : Oid :=
  ⟨[0x2a, 0x86, 0x48, 0x86, 0xf7, 0x0d, 0x01, 0x05, 0x0c]⟩

/-- 1.3.6.1.4.1.11591.4.11 -/
def scryptOid : Oid :=
  ⟨[0x2b, 0x06, 0x01, 0x04, 0x01, 0xda, 0x47, 0x04, 0x0b]⟩

/-- 1.2.840.113549.2.8 to 1.2.840.113549.2.11 -/
def hashOid : HashFunction → Oid
  | .sha224 => ⟨[0x2a, 0x86, 0x48, 0x86, 0xf7, 0x0d, 0x02, 0x08]⟩
  | .sha256 => ⟨[0x2a, 0x86, 0x48, 0x86, 0xf7, 0x0d, 0x02, 0x09]⟩
  | .sha384 => ⟨[0x2a, 0x86, 0x48, 0x86, 0xf7, 0x0d, 0x02, 0x0a]⟩
  | .sha512 => ⟨[0x2a, 0x86, 0x48, 0x86, 0xf7, 0x0d, 0x02, 0x0b]⟩

/-- The digest of a keyed digest, which takes NULL for a parameter. -/
def hash? (algorithm : Algorithm) : Option HashFunction :=
  if algorithm.parameters = some ⟨Tag.null, []⟩ then
    [HashFunction.sha224, .sha256, .sha384, .sha512].find? (hashOid · = algorithm.oid)
  else none

/-- The digest stands last, and its default is not supported. -/
def readPbkdf2 : Reader KeyRecipe :=
  Reader.nested Tag.sequence do
    let salt ← Reader.octetString
    let iterations ← Reader.unsigned 4
    let length ← Reader.optional Tag.integer (Reader.unsigned 2)
    let hash ← (hash? (← Algorithm.read) : Option HashFunction)
    return pbkdf2 salt iterations length hash

def readScrypt : Reader KeyRecipe :=
  Reader.nested Tag.sequence do
    let salt ← Reader.octetString
    let rows ← Reader.unsigned 8
    let blockSize ← Reader.unsigned 2
    let parallelism ← Reader.unsigned 2
    let length ← Reader.optional Tag.integer (Reader.unsigned 2)
    return scrypt salt ⟨rows, blockSize, parallelism⟩ length

def ofAlgorithm? (algorithm : Algorithm) : Option KeyRecipe := do
  let parameters ← algorithm.parameters
  if algorithm.oid = pbkdf2Oid then readPbkdf2.whole parameters.encode
  else if algorithm.oid = scryptOid then readScrypt.whole parameters.encode
  else none

end KeyRecipe

/-- Contents encrypted with AES under a key made of a password. -/
structure PasswordEncryption where
  recipe : KeyRecipe
  keySize : Nat
  iv : Bytes
  contents : Bytes
  deriving Repr, DecidableEq

namespace PasswordEncryption

/-- 1.2.840.113549.1.5.13 -/
def schemeOid : Oid :=
  ⟨[0x2a, 0x86, 0x48, 0x86, 0xf7, 0x0d, 0x01, 0x05, 0x0d]⟩

/-- 2.16.840.1.101.3.4.1.2, 22 and 42 -/
def aesOid (last : UInt8) : Oid :=
  ⟨[0x60, 0x86, 0x48, 0x01, 0x65, 0x03, 0x04, 0x01, last]⟩

def keySize? (oid : Oid) : Option Nat :=
  if oid = aesOid 2 then some 16
  else if oid = aesOid 22 then some 24
  else if oid = aesOid 42 then some 32
  else none

/-- The size of the key, and the initial vector. -/
def cipher? (algorithm : Algorithm) : Option (Nat × Bytes) := do
  let size ← keySize? algorithm.oid
  let iv ← algorithm.parameters
  if iv.tag = Tag.octetString ∧ iv.content.length = 16 then some (size, iv.content) else none

def readScheme : Reader (Algorithm × Algorithm) :=
  Reader.nested Tag.sequence do return (← Algorithm.read, ← Algorithm.read)

def read : Reader PasswordEncryption :=
  Reader.nested Tag.sequence do
    let algorithm ← Algorithm.read
    let contents ← Reader.octetString
    if algorithm.oid ≠ schemeOid then failure
    let parameters ← (algorithm.parameters : Option Element)
    let (recipe, cipher) ← (readScheme.whole parameters.encode : Option (Algorithm × Algorithm))
    let recipe ← (KeyRecipe.ofAlgorithm? recipe : Option KeyRecipe)
    let (keySize, iv) ← (cipher? cipher : Option (Nat × Bytes))
    return { recipe, keySize, iv, contents }

def decrypt? (bytes password : Bytes) : Option Bytes := do
  let sealed ← read.ofInput bytes
  let key ← sealed.recipe.derive? password sealed.keySize
  Cbc.decrypt? (Aes.cipher sealed.keySize) key sealed.iv sealed.contents

end PasswordEncryption

end RequestSigning.Credential
