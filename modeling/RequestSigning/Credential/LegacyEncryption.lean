import RequestSigning.Cipher.Aes
import RequestSigning.Cipher.Des
import RequestSigning.Credential.Fault
import RequestSigning.KeyDerivation.Chained
set_option autoImplicit false

namespace RequestSigning.Credential

/-- The ciphers that the headers of an encrypted block may name. -/
inductive LegacyCipher where
  | des
  | tripleDes
  | aes128
  | aes192
  | aes256
  deriving Repr, DecidableEq

namespace LegacyCipher

def all : List LegacyCipher :=
  [des, tripleDes, aes128, aes192, aes256]

def name : LegacyCipher → String
  | des => "DES-CBC"
  | tripleDes => "DES-EDE3-CBC"
  | aes128 => "AES-128-CBC"
  | aes192 => "AES-192-CBC"
  | aes256 => "AES-256-CBC"

def ofName? (name : String) : Option LegacyCipher :=
  all.find? (·.name = name)

/-- How many bytes of key are derived for it. -/
def keyLength : LegacyCipher → Nat
  | des => 8
  | tripleDes | aes192 => 24
  | aes128 => 16
  | aes256 => 32

/-- How many bytes its initial vector has to have. -/
def blockSize : LegacyCipher → Nat
  | des | tripleDes => 8
  | aes128 | aes192 | aes256 => 16

def blockCipher : LegacyCipher → BlockCipher
  | des => Des.cipher
  | tripleDes => Des.tripleCipher
  | aes128 => Aes.cipher 16
  | aes192 => Aes.cipher 24
  | aes256 => Aes.cipher 32

/-- The first eight bytes of the initial vector are the salt of the key. -/
def key (cipher : LegacyCipher) (passphrase iv : Bytes) : Bytes :=
  KeyDerivation.chained passphrase (iv.take 8) cipher.keyLength

/-- Sets the cipher up, and takes the passphrase for wrong if the padding is. -/
def decrypt (cipher : LegacyCipher) (key iv hidden : Bytes) : Except Fault Bytes :=
  if cipher.blockCipher.Admits key iv then
    match Cbc.decrypt? cipher.blockCipher key iv hidden with
    | some contents => .ok contents
    | none => .error .wrongPassphrase
  else .error .invalidLength

end LegacyCipher

namespace LegacyEncryption

def procType : String := "Proc-Type"

def cipherInfo : String := "DEK-Info"

/-- Whether a word stands anywhere in a text. -/
def hasWord (word : List Char) : List Char → Bool
  | [] => word.isEmpty
  | c :: rest => word.isPrefixOf (c :: rest) || hasWord word rest

/-- A block whose headers say that its contents are encrypted. -/
def isEncrypted (pem : Pem) : Bool :=
  match pem.header? procType with
  | some value => hasWord "ENCRYPTED".toList value.toList
  | none => false

/-- The cipher and the initial vector that a header's value names. -/
def readCipherInfo (info : String) : Except Fault (LegacyCipher × Bytes) :=
  match info.toList.dropWhile (· ≠ ',') with
  | [] => .error (.malformedCipherInfo info)
  | _ :: digits =>
    let name := String.ofList (Blank.trim (info.toList.takeWhile (· ≠ ',')))
    match LegacyCipher.ofName? name with
    | none => .error (.unsupportedCipher name)
    | some cipher =>
      match Hex.decode (Utf8.encode (Blank.trim digits)) with
      | .error fault => .error (.malformedIv fault)
      | .ok iv =>
        if iv.length = cipher.blockSize then .ok (cipher, iv)
        else .error (.wrongIvLength cipher.name cipher.blockSize iv.length)

/-- The cipher and the initial vector that the headers of a block name. -/
def readSetup (pem : Pem) : Except Fault (LegacyCipher × Bytes) :=
  match pem.header? cipherInfo with
  | some info => readCipherInfo info
  | none => .error .missingCipherInfo

/-- The contents in the clear. No key is derived before the headers have been read. -/
def decrypt (pem : Pem) (passphrase : Bytes) : Except Fault Bytes :=
  match readSetup pem with
  | .ok (cipher, iv) => cipher.decrypt (cipher.key passphrase iv) iv pem.contents
  | .error fault => .error fault

/-- The block of encrypted contents; `digits` is the initial vector in hexadecimal. -/
def encrypt (cipher : LegacyCipher) (digits tag : String) (passphrase iv contents : Bytes) : Pem :=
  { tag
    headers := [(procType, "4,ENCRYPTED"), (cipherInfo, cipher.name ++ "," ++ digits)]
    contents := Cbc.encrypt cipher.blockCipher (cipher.key passphrase iv) iv contents }

end LegacyEncryption

end RequestSigning.Credential
