set_option autoImplicit false

namespace RequestSigning

/-- A byte string. -/
abbrev Bytes := List UInt8

namespace Bytes

/-- The number whose big-endian digits are the bytes. -/
def toNat (bytes : Bytes) : Nat :=
  bytes.foldl (fun n b => n * 256 + b.toNat) 0

/-- The low `width` bytes of a number, most significant first. -/
def ofNat : Nat → Nat → Bytes
  | 0, _ => []
  | width + 1, n => ofNat width (n / 256) ++ [UInt8.ofNat n]

@[simp] theorem length_ofNat (width n : Nat) : (ofNat width n).length = width := by
  induction width generalizing n with
  | zero => rfl
  | succ width ih => simp only [ofNat, List.length_append, ih, List.length_singleton]

/-- How many bytes a number needs; zero needs none. -/
def width (n : Nat) : Nat :=
  if n = 0 then 0 else n.log2 / 8 + 1

/-- At most `limit` consecutive pieces of `size` bytes. -/
def chunksWithin (size : Nat) : (limit : Nat) → Bytes → List Bytes
  | 0, _ => []
  | limit + 1, bytes =>
    if bytes = [] then [] else bytes.take size :: chunksWithin size limit (bytes.drop size)

/-- Consecutive pieces of `size` bytes, the last one possibly shorter. As each takes up a byte
at least, the length bounds their number. -/
def chunks (size : Nat) (bytes : Bytes) : List Bytes :=
  chunksWithin size bytes.length bytes

/-- Byte by byte exclusive or, as long as the shorter operand. -/
def xor (left right : Bytes) : Bytes :=
  List.zipWith (· ^^^ ·) left right

/-- The low 32 bits of the big-endian number. -/
def toUInt32 (bytes : Bytes) : UInt32 :=
  bytes.foldl (fun n b => n <<< 8 ||| b.toUInt32) 0

/-- The low 64 bits of the big-endian number. -/
def toUInt64 (bytes : Bytes) : UInt64 :=
  bytes.foldl (fun n b => n <<< 8 ||| b.toUInt64) 0

def ofUInt32 (n : UInt32) : Bytes :=
  [(n >>> 24).toUInt8, (n >>> 16).toUInt8, (n >>> 8).toUInt8, n.toUInt8]

def ofUInt64 (n : UInt64) : Bytes :=
  ofUInt32 (n >>> 32).toUInt32 ++ ofUInt32 n.toUInt32

@[simp] theorem length_ofUInt64 (n : UInt64) : (ofUInt64 n).length = 8 := rfl

/-- Lexicographic order of unsigned bytes; a proper beginning comes first. -/
def compare : Bytes → Bytes → Ordering
  | [], [] => .eq
  | [], _ :: _ => .lt
  | _ :: _, [] => .gt
  | a :: left, b :: right =>
    if a < b then .lt else if b < a then .gt else compare left right

end Bytes

end RequestSigning
