import RequestSigning.Digest.Blocks
set_option autoImplicit false

namespace RequestSigning.Sha256

/-- The eight chaining words. -/
structure State where
  a : UInt32
  b : UInt32
  c : UInt32
  d : UInt32
  e : UInt32
  f : UInt32
  g : UInt32
  h : UInt32
  deriving Repr, DecidableEq

def rotate (x n : UInt32) : UInt32 :=
  x >>> n ||| x <<< (32 - n)

/-- The round constants are fractions of the cube roots of the first 64 primes. -/
def constants : List UInt32 :=
  (Digest.primes.take 64).map fun p => UInt32.ofNat (Digest.rootFraction 3 32 p)

def extend (words : Array UInt32) (t : Nat) : Array UInt32 :=
  let x := words.getD (t - 15) 0
  let y := words.getD (t - 2) 0
  words.push
    ((rotate y 17 ^^^ rotate y 19 ^^^ y >>> 10) + words.getD (t - 7) 0 +
      (rotate x 7 ^^^ rotate x 18 ^^^ x >>> 3) + words.getD (t - 16) 0)

/-- The sixteen words of a block and the 48 that follow from them. -/
def schedule (block : Bytes) : List UInt32 :=
  ((List.range' 16 48).foldl extend ((block.chunks 4).map Bytes.toUInt32).toArray).toList

def round (s : State) (k w : UInt32) : State :=
  let t := s.h + (rotate s.e 6 ^^^ rotate s.e 11 ^^^ rotate s.e 25) +
    (s.e &&& s.f ^^^ ~~~ s.e &&& s.g) + k + w
  let u := (rotate s.a 2 ^^^ rotate s.a 13 ^^^ rotate s.a 22) +
    (s.a &&& s.b ^^^ s.a &&& s.c ^^^ s.b &&& s.c)
  ⟨t + u, s.a, s.b, s.c, s.d + t, s.e, s.f, s.g⟩

def compress (s : State) (block : Bytes) : State :=
  let t := (constants.zip (schedule block)).foldl (fun t (k, w) => round t k w) s
  ⟨s.a + t.a, s.b + t.b, s.c + t.c, s.d + t.d, s.e + t.e, s.f + t.f, s.g + t.g, s.h + t.h⟩

def State.ofWords (words : List Nat) : State :=
  let word := fun i => UInt32.ofNat (words.getD i 0)
  ⟨word 0, word 1, word 2, word 3, word 4, word 5, word 6, word 7⟩

/-- Fractions of the square roots of the first eight primes. -/
def initial : State :=
  .ofWords ((Digest.primes.take 8).map (Digest.rootFraction 2 32))

/-- The second 32 bits of the fractions of the square roots of the next eight primes. -/
def initial224 : State :=
  .ofWords (((Digest.primes.drop 8).take 8).map (Digest.rootFraction 2 64))

def State.bytes (s : State) : Bytes :=
  Bytes.ofUInt32 s.a ++ Bytes.ofUInt32 s.b ++ Bytes.ofUInt32 s.c ++ Bytes.ofUInt32 s.d ++
    Bytes.ofUInt32 s.e ++ Bytes.ofUInt32 s.f ++ Bytes.ofUInt32 s.g ++ Bytes.ofUInt32 s.h

def run (start : State) (message : Bytes) : State :=
  ((Digest.pad 64 (Bytes.ofUInt64 (UInt64.ofNat (8 * message.length))) message).chunks 64).foldl
    compress start

def digest (message : Bytes) : Bytes :=
  (run initial message).bytes

def digest224 (message : Bytes) : Bytes :=
  (run initial224 message).bytes.take 28

@[simp] theorem length_digest (message : Bytes) : (digest message).length = 32 := rfl

end RequestSigning.Sha256
