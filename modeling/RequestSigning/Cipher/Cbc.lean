import RequestSigning.Bytes
set_option autoImplicit false

namespace RequestSigning

/-- A cipher of single blocks. `prepare` turns a key into the form that both directions use. -/
structure BlockCipher where
  blockSize : Nat
  keySize : Nat
  Schedule : Type
  prepare : (key : Bytes) → Schedule
  encrypt : Schedule → (block : Bytes) → Bytes
  decrypt : Schedule → (block : Bytes) → Bytes

/-- Under every key of its size a lawful cipher maps blocks to blocks and back. -/
structure BlockCipher.IsLawful (cipher : BlockCipher) : Prop where
  blockSize_pos : 0 < cipher.blockSize
  blockSize_lt : cipher.blockSize < 256
  length_encrypt : ∀ key block : Bytes, key.length = cipher.keySize →
    block.length = cipher.blockSize →
      (cipher.encrypt (cipher.prepare key) block).length = cipher.blockSize
  decrypt_encrypt : ∀ key block : Bytes, key.length = cipher.keySize →
    block.length = cipher.blockSize →
      cipher.decrypt (cipher.prepare key) (cipher.encrypt (cipher.prepare key) block) = block

/-- The lengths of key and initial vector that a cipher can be set up with. -/
def BlockCipher.Admits (cipher : BlockCipher) (key iv : Bytes) : Prop :=
  key.length = cipher.keySize ∧ iv.length = cipher.blockSize

instance (cipher : BlockCipher) (key iv : Bytes) : Decidable (cipher.Admits key iv) :=
  inferInstanceAs (Decidable (_ ∧ _))

namespace Padding

/-- As many bytes as complete the last block, at least one, each the number of them. -/
def add (size : Nat) (bytes : Bytes) : Bytes :=
  let count := size - bytes.length % size
  bytes ++ List.replicate count (UInt8.ofNat count)

/-- Takes the padding off whole blocks. -/
def strip? (size : Nat) (bytes : Bytes) : Option Bytes :=
  match bytes.getLast? with
  | none => none
  | some last =>
    let count := last.toNat
    let kept := bytes.take (bytes.length - count)
    if 1 ≤ count ∧ count ≤ size ∧ count ≤ bytes.length ∧
        bytes.drop (bytes.length - count) = List.replicate count last then
      some kept
    else none

end Padding

namespace Cbc

/-- Each block is added to the one before it in cipher text, and then encrypted. -/
def encryptBlocks (encrypt : Bytes → Bytes) : (previous : Bytes) → List Bytes → Bytes
  | _, [] => []
  | previous, block :: rest =>
    let hidden := encrypt (Bytes.xor block previous)
    hidden ++ encryptBlocks encrypt hidden rest

def decryptBlocks (decrypt : Bytes → Bytes) : (previous : Bytes) → List Bytes → Bytes
  | _, [] => []
  | previous, hidden :: rest =>
    Bytes.xor (decrypt hidden) previous ++ decryptBlocks decrypt hidden rest

def encrypt (cipher : BlockCipher) (key iv plain : Bytes) : Bytes :=
  let schedule := cipher.prepare key
  encryptBlocks (cipher.encrypt schedule) iv
    ((Padding.add cipher.blockSize plain).chunks cipher.blockSize)

/-- Fails where the text is not in whole blocks or does not end in padding. -/
def decrypt? (cipher : BlockCipher) (key iv hidden : Bytes) : Option Bytes :=
  if hidden.length % cipher.blockSize = 0 then
    let schedule := cipher.prepare key
    Padding.strip? cipher.blockSize
      (decryptBlocks (cipher.decrypt schedule) iv (hidden.chunks cipher.blockSize))
  else none

end Cbc

end RequestSigning
