import RequestSigning.Bytes
import RequestSigning.Text.Quoted
set_option autoImplicit false

namespace RequestSigning.Hex

/-- The lower-case digit of a number below sixteen. -/
def digit (n : Nat) : Char :=
  if n < 10 then Char.ofNat (48 + n) else Char.ofNat (87 + n)

def encode (bytes : Bytes) : List Char :=
  bytes.flatMap fun b => [digit (b.toNat / 16), digit (b.toNat % 16)]

/-- The value of a digit, in either case. -/
def value? (b : UInt8) : Option UInt8 :=
  if 48 ≤ b ∧ b ≤ 57 then some (b - 48)
  else if 97 ≤ b ∧ b ≤ 102 then some (b - 87)
  else if 65 ≤ b ∧ b ≤ 70 then some (b - 55)
  else none

inductive Fault where
  | oddLength
  | invalidDigit (byte : UInt8) (index : Nat)
  deriving Repr, DecidableEq

/-- A byte that is no digit is shown as the character of that number. -/
def Fault.message : Fault → String
  | .oddLength => "Odd number of digits"
  | .invalidDigit byte index =>
    s!"Invalid character {Quoted.quoteChar (Char.ofNat byte.toNat)} at position {index}"

def decodeFrom (index : Nat) : Bytes → Except Fault Bytes
  | high :: low :: rest =>
    match value? high, value? low with
    | some h, some l => (decodeFrom (index + 2) rest).map ((h * 16 + l) :: ·)
    | none, _ => .error (.invalidDigit high index)
    | some _, none => .error (.invalidDigit low (index + 1))
  | _ => .ok []

/-- Two digits a byte; an odd number of digits is refused before any digit is looked at. -/
def decode (digits : Bytes) : Except Fault Bytes :=
  if digits.length % 2 = 1 then .error .oddLength else decodeFrom 0 digits

/-- A number in hexadecimal without leading zeros. -/
def ofNat (n : Nat) : String :=
  String.ofList (Nat.toDigits 16 n)

end RequestSigning.Hex
