import RequestSigning.Cipher.Cbc
set_option autoImplicit false

namespace RequestSigning.Aes

/-- Multiplication by the indeterminate, modulo `x⁸ + x⁴ + x³ + x + 1`. -/
def double (a : UInt8) : UInt8 :=
  if a < 0x80 then a <<< 1 else a <<< 1 ^^^ 0x1B

/-- The product in the field of 256 elements. -/
def mul (a b : UInt8) : UInt8 :=
  (List.range 8).foldr
    (fun bit product => double product ^^^ if (b >>> UInt8.ofNat bit) &&& 1 = 1 then a else 0) 0

/-- The inverse, and zero for zero: the 254th power. -/
def inverse (a : UInt8) : UInt8 :=
  let a2 := mul a a
  let a3 := mul a2 a
  let a6 := mul a3 a3
  let a12 := mul a6 a6
  let a15 := mul a12 a3
  let a30 := mul a15 a15
  let a60 := mul a30 a30
  let a120 := mul a60 a60
  let a126 := mul a120 a6
  let a127 := mul a126 a
  mul a127 a127

def rotateLeft (a n : UInt8) : UInt8 :=
  a <<< n ||| a >>> (8 - n)

/-- The inverse, spread over the byte by an affine map. -/
def substitute (a : UInt8) : UInt8 :=
  let b := inverse a
  b ^^^ rotateLeft b 1 ^^^ rotateLeft b 2 ^^^ rotateLeft b 3 ^^^ rotateLeft b 4 ^^^ 0x63

def unsubstitute (a : UInt8) : UInt8 :=
  inverse (rotateLeft a 1 ^^^ rotateLeft a 3 ^^^ rotateLeft a 6 ^^^ 0x05)

def table (f : UInt8 → UInt8) : Array UInt8 :=
  ((List.range 256).map fun n => f (UInt8.ofNat n)).toArray

def substitutions : Array UInt8 := table substitute

def unsubstitutions : Array UInt8 := table unsubstitute

def byTable (entries : Array UInt8) (b : UInt8) : UInt8 :=
  entries.getD b.toNat 0

/-- Row `r` of the state, whose columns follow one another, moves left by `r` places. -/
def shiftRows (state : Bytes) : Bytes :=
  [0, 5, 10, 15, 4, 9, 14, 3, 8, 13, 2, 7, 12, 1, 6, 11].map fun i => state.getD i 0

def unshiftRows (state : Bytes) : Bytes :=
  [0, 13, 10, 7, 4, 1, 14, 11, 8, 5, 2, 15, 12, 9, 6, 3].map fun i => state.getD i 0

/-- A column times the circulant matrix of the four factors. -/
def mixColumn (p q r s : UInt8) (a b c d : UInt8) : Bytes :=
  [mul a p ^^^ mul b q ^^^ mul c r ^^^ mul d s, mul a s ^^^ mul b p ^^^ mul c q ^^^ mul d r,
    mul a r ^^^ mul b s ^^^ mul c p ^^^ mul d q, mul a q ^^^ mul b r ^^^ mul c s ^^^ mul d p]

def mixColumns : Bytes → Bytes
  | a :: b :: c :: d :: rest => mixColumn 2 3 1 1 a b c d ++ mixColumns rest
  | _ => []

def unmixColumns : Bytes → Bytes
  | a :: b :: c :: d :: rest => mixColumn 14 11 13 9 a b c d ++ unmixColumns rest
  | _ => []

/-- The change to every first word of a key's length: turned, substituted, and with the
round's power of two. -/
def turnWord (round : Nat) : Bytes → Bytes
  | a :: rest =>
    Bytes.xor ((rest ++ [a]).map (byTable substitutions))
      [(List.range (round - 1)).foldl (fun power _ => double power) 1, 0, 0, 0]
  | [] => []

/-- One more word of the key schedule; `keyWords` is the length of the key in words. -/
def extendKey (keyWords : Nat) (words : Array Bytes) (i : Nat) : Array Bytes :=
  let last := words.getD (i - 1) []
  let change :=
    if i % keyWords = 0 then turnWord (i / keyWords) last
    else if 6 < keyWords ∧ i % keyWords = 4 then last.map (byTable substitutions)
    else last
  words.push (Bytes.xor (words.getD (i - keyWords) []) change)

/-- The round keys, of sixteen bytes each: six more than the key has words, and one. -/
def roundKeys (key : Bytes) : List Bytes :=
  let keyWords := key.length / 4
  let words := (List.range' keyWords (4 * (keyWords + 7) - keyWords)).foldl (extendKey keyWords)
    (key.chunks 4).toArray
  Bytes.chunks 16 words.toList.flatten

/-- The rounds after the first key; the last does not mix columns. -/
def encryptRounds (state : Bytes) : List Bytes → Bytes
  | [] => state
  | [key] => Bytes.xor (shiftRows (state.map (byTable substitutions))) key
  | key :: later =>
    encryptRounds (Bytes.xor (mixColumns (shiftRows (state.map (byTable substitutions)))) key) later

def encryptBlock : (keys : List Bytes) → (block : Bytes) → Bytes
  | [], block => block
  | key :: later, block => encryptRounds (Bytes.xor block key) later

/-- Undoes `encryptRounds`, from the last key to the first. -/
def decryptRounds (state : Bytes) : List Bytes → Bytes
  | [] => state
  | [key] => (unshiftRows (Bytes.xor state key)).map (byTable unsubstitutions)
  | key :: later =>
    (unshiftRows (unmixColumns (Bytes.xor (decryptRounds state later) key))).map
      (byTable unsubstitutions)

def decryptBlock : (keys : List Bytes) → (block : Bytes) → Bytes
  | [], block => block
  | key :: later, block => Bytes.xor (decryptRounds block later) key

/-- AES with keys of `keySize` bytes: 16, 24 or 32. -/
def cipher (keySize : Nat) : BlockCipher where
  blockSize := 16
  keySize := keySize
  Schedule := List Bytes
  prepare := roundKeys
  encrypt := encryptBlock
  decrypt := decryptBlock

end RequestSigning.Aes
