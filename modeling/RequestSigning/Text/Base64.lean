import RequestSigning.Bytes
set_option autoImplicit false

namespace RequestSigning.Base64

def padding : UInt8 := 61

/-- The character of a six bit value. -/
def symbol (n : UInt8) : UInt8 :=
  if n < 26 then n + 65
  else if n < 52 then n + 71
  else if n < 62 then n - 4
  else if n = 62 then 43
  else 47

def value? (b : UInt8) : Option UInt8 :=
  if 65 ≤ b ∧ b ≤ 90 then some (b - 65)
  else if 97 ≤ b ∧ b ≤ 122 then some (b - 71)
  else if 48 ≤ b ∧ b ≤ 57 then some (b + 4)
  else if b = 43 then some 62
  else if b = 47 then some 63
  else none

def encode : Bytes → Bytes
  | a :: b :: c :: rest =>
    symbol (a >>> 2) :: symbol ((a &&& 3) <<< 4 ||| b >>> 4) ::
      symbol ((b &&& 15) <<< 2 ||| c >>> 6) :: symbol (c &&& 63) :: encode rest
  | [a, b] =>
    [symbol (a >>> 2), symbol ((a &&& 3) <<< 4 ||| b >>> 4), symbol ((b &&& 15) <<< 2), padding]
  | [a] => [symbol (a >>> 2), symbol ((a &&& 3) <<< 4), padding, padding]
  | [] => []

inductive Fault where
  | invalidSymbol (byte : UInt8) (offset : Nat)
  | invalidLength (length : Nat)
  | invalidLastSymbol (byte : UInt8) (offset : Nat)
  | invalidPadding
  deriving Repr, DecidableEq

def Fault.message : Fault → String
  | .invalidSymbol byte offset => s!"Invalid symbol {byte.toNat}, offset {offset}."
  | .invalidLength length => s!"Invalid input length: {length}"
  | .invalidLastSymbol byte offset => s!"Invalid last symbol {byte.toNat}, offset {offset}."
  | .invalidPadding => "Invalid padding"

def read (offset : Nat) (b : UInt8) : Except Fault UInt8 :=
  match value? b with
  | some n => .ok n
  | none => .error (.invalidSymbol b offset)

/-- The three bytes of four six bit values. -/
def join (a b c d : UInt8) : Bytes :=
  [a <<< 2 ||| b >>> 4, b <<< 4 ||| c >>> 2, c <<< 6 ||| d]

/-- The symbols before the padding of the last group, and how long the padding is.
Padding may not stand before the third place, nor before a symbol. -/
def splitPadding (offset : Nat) : Nat → Bytes → Except Fault (Bytes × Nat)
  | _, [] => .ok ([], 0)
  | index, b :: rest =>
    if b = padding then
      if index < 2 then .error (.invalidSymbol b (offset + index))
      else if rest.all (· == padding) then .ok ([], rest.length + 1)
      else .error (.invalidSymbol padding (offset + index))
    else
      match read (offset + index) b with
      | .error fault => .error fault
      | .ok _ => (splitPadding offset (index + 1) rest).map fun (symbols, pads) => (b :: symbols, pads)

/-- The last group, of at most four symbols. Bits beyond the last whole byte must be zero. -/
def decodeLast (offset : Nat) (group : Bytes) : Except Fault Bytes :=
  match splitPadding offset 0 group with
  | .error fault => .error fault
  | .ok (symbols, pads) =>
    if group ≠ [] ∧ symbols.length < 2 then .error (.invalidLength (offset + symbols.length))
    else if (symbols.length + pads) % 4 ≠ 0 then .error .invalidPadding
    else
      match symbols.filterMap value? with
      | [a, b, c, d] => .ok (join a b c d)
      | [a, b, c] =>
        if c &&& 3 ≠ 0 then
          .error (.invalidLastSymbol (symbols.getLastD padding) (offset + 2))
        else .ok ((join a b c 0).take 2)
      | [a, b] =>
        if b &&& 15 ≠ 0 then
          .error (.invalidLastSymbol (symbols.getLastD padding) (offset + 1))
        else .ok ((join a b 0 0).take 1)
      | _ => .ok []

def decodeFrom (offset : Nat) : Bytes → Except Fault Bytes
  | a :: b :: c :: d :: e :: rest =>
    match read offset a, read (offset + 1) b, read (offset + 2) c, read (offset + 3) d with
    | .ok a, .ok b, .ok c, .ok d => (decodeFrom (offset + 4) (e :: rest)).map (join a b c d ++ ·)
    | .error fault, _, _, _ => .error fault
    | _, .error fault, _, _ => .error fault
    | _, _, .error fault, _ => .error fault
    | _, _, _, .error fault => .error fault
  | group => decodeLast offset group

/-- Strict reading of the standard alphabet with padding. A stray last byte after whole
groups is reported before anything else. -/
def decode (text : Bytes) : Except Fault Bytes :=
  match text.getLast? with
  | some last =>
    if text.length % 4 = 1 ∧ last ≠ padding ∧ value? last = none then
      .error (.invalidSymbol last (text.length - 1))
    else decodeFrom 0 text
  | none => .ok []

end RequestSigning.Base64
