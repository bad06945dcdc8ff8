import RequestSigning.Bytes
set_option autoImplicit false

namespace RequestSigning.Utf8

def encode (chars : List Char) : Bytes :=
  chars.flatMap String.utf8EncodeChar

/-- Where reading stands between two bytes: between characters, or inside one of
which `seen` bytes are read, `owed` are missing, and the next lies in `[low, high]`. -/
inductive State where
  | start
  | inside (seen owed : Nat) (low high : UInt8) (value : Nat)
  deriving Repr, DecidableEq

inductive Step where
  | char (c : Char)
  | more (state : State)
  | refused
  deriving Repr, DecidableEq

/-- The first byte of a character says how many follow and bounds the second, so that
overlong forms, surrogates and numbers above `0x10FFFF` are refused at the earliest byte. -/
def first (b : UInt8) : Step :=
  if b < 0x80 then .char (Char.ofNat b.toNat)
  else if b < 0xC2 then .refused
  else if b < 0xE0 then .more (.inside 1 1 0x80 0xBF (b.toNat - 0xC0))
  else if b < 0xF0 then
    .more (.inside 1 2 (if b = 0xE0 then 0xA0 else 0x80) (if b = 0xED then 0x9F else 0xBF)
      (b.toNat - 0xE0))
  else if b < 0xF5 then
    .more (.inside 1 3 (if b = 0xF0 then 0x90 else 0x80) (if b = 0xF4 then 0x8F else 0xBF)
      (b.toNat - 0xF0))
  else .refused

def step : State → UInt8 → Step
  | .start, b => first b
  | .inside seen owed low high value, b =>
    if low ≤ b ∧ b ≤ high then
      let value := value * 64 + (b.toNat - 0x80)
      if owed ≤ 1 then .char (Char.ofNat value)
      else .more (.inside (seen + 1) (owed - 1) 0x80 0xBF value)
    else .refused

/-- The first place that is not UTF-8. `length` is how many bytes can start no character;
it is `none` when the bytes end inside one. -/
structure Fault where
  index : Nat
  length : Option Nat
  deriving Repr, DecidableEq

def Fault.message (fault : Fault) : String :=
  match fault.length with
  | some length => s!"invalid utf-8 sequence of {length} bytes from index {fault.index}"
  | none => s!"incomplete utf-8 byte sequence from index {fault.index}"

/-- Reading on from `state`, whose character began at `index`; `next` is the position
of the first unread byte. -/
def decodeFrom (index next : Nat) : State → Bytes → Except Fault (List Char)
  | .start, [] => .ok []
  | .inside .., [] => .error ⟨index, none⟩
  | state, b :: rest =>
    match step state b with
    | .char c => (decodeFrom (next + 1) (next + 1) .start rest).map (c :: ·)
    | .more state => decodeFrom index (next + 1) state rest
    | .refused => .error ⟨index, some (match state with | .start => 1 | .inside seen .. => seen)⟩

/-- Strict reading. -/
def decode (bytes : Bytes) : Except Fault (List Char) :=
  decodeFrom 0 0 .start bytes

def isValid (bytes : Bytes) : Bool :=
  (decode bytes).isOk

/-- Stands for every stretch of bytes that begins no character. -/
def replacement : Char := '\uFFFD'

def decodeLossyFrom : State → Bytes → List Char
  | .start, [] => []
  | .inside .., [] => [replacement]
  | state, b :: rest =>
    match step state b with
    | .char c => c :: decodeLossyFrom .start rest
    | .more state => decodeLossyFrom state rest
    | .refused =>
      match state with
      | .start => replacement :: decodeLossyFrom .start rest
      | .inside .. =>
        match first b with
        | .char c => replacement :: c :: decodeLossyFrom .start rest
        | .more state => replacement :: decodeLossyFrom state rest
        | .refused => replacement :: replacement :: decodeLossyFrom .start rest

/-- Reading that never fails: each maximal beginning of a character that does not complete
it, and each byte that begins none, becomes one replacement character. -/
def decodeLossy (bytes : Bytes) : List Char :=
  decodeLossyFrom .start bytes

end RequestSigning.Utf8

namespace RequestSigning

/-- The UTF-8 bytes of a text. -/
def Bytes.ofString (text : String) : Bytes :=
  Utf8.encode text.toList

/-- The text of bytes that need not be UTF-8. -/
def Bytes.toStringLossy (bytes : Bytes) : String :=
  String.ofList (Utf8.decodeLossy bytes)

end RequestSigning
