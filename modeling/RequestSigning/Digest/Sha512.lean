import RequestSigning.Digest.Blocks
set_option autoImplicit false

namespace RequestSigning.Sha512

/-- The eight chaining words. -/
structure State where
  a : UInt64
  b : UInt64
  c : UInt64
  d : UInt64
  e : UInt64
  f : UInt64
  g : UInt64
  h : UInt64
  deriving Repr, DecidableEq

def rotate (x n : UInt64) : UInt64 :=
  x >>> n ||| x <<< (64 - n)

/-- The round constants are fractions of the cube roots of the first eighty primes. -/
def constants : List UInt64 :=
  Digest.primes.map fun p => UInt64.ofNat (Digest.rootFraction 3 64 p)

def extend (words : Array UInt64) (t : Nat) : Array UInt64 :=
  let x := words.getD (t - 15) 0
  let y := words.getD (t - 2) 0
  words.push
    ((rotate y 19 ^^^ rotate y 61 ^^^ y >>> 6) + words.getD (t - 7) 0 +
      (rotate x 1 ^^^ rotate x 8 ^^^ x >>> 7) + words.getD (t - 16) 0)

/-- The sixteen words of a block and the 64 that follow from them. -/
def schedule (block : Bytes) : List UInt64 :=
  ((List.range' 16 64).foldl extend ((block.chunks 8).map Bytes.toUInt64).toArray).toList

def round (s : State) (k w : UInt64) : State :=
  let t := s.h + (rotate s.e 14 ^^^ rotate s.e 18 ^^^ rotate s.e 41) +
    (s.e &&& s.f ^^^ ~~~ s.e &&& s.g) + k + w
  let u := (rotate s.a 28 ^^^ rotate s.a 34 ^^^ rotate s.a 39) +
    (s.a &&& s.b ^^^ s.a &&& s.c ^^^ s.b &&& s.c)
  ⟨t + u, s.a, s.b, s.c, s.d + t, s.e, s.f, s.g⟩

def compress (s : State) (block : Bytes) : State :=
  let t := (constants.zip (schedule block)).foldl (fun t (k, w) => round t k w) s
  ⟨s.a + t.a, s.b + t.b, s.c + t.c, s.d + t.d, s.e + t.e, s.f + t.f, s.g + t.g, s.h + t.h⟩

def State.ofWords (words : List Nat) : State :=
  let word := fun i => UInt64.ofNat (words.getD i 0)
  ⟨word 0, word 1, word 2, word 3, word 4, word 5, word 6, word 7⟩

/-- Fractions of the square roots of the first eight primes. -/
def initial : State :=
  .ofWords ((Digest.primes.take 8).map (Digest.rootFraction 2 64))

/-- Fractions of the square roots of the next eight primes. -/
def initial384 : State :=
  .ofWords (((Digest.primes.drop 8).take 8).map (Digest.rootFraction 2 64))

def State.bytes (s : State) : Bytes :=
  Bytes.ofUInt64 s.a ++ Bytes.ofUInt64 s.b ++ Bytes.ofUInt64 s.c ++ Bytes.ofUInt64 s.d ++
    Bytes.ofUInt64 s.e ++ Bytes.ofUInt64 s.f ++ Bytes.ofUInt64 s.g ++ Bytes.ofUInt64 s.h

def run (start : State) (message : Bytes) : State :=
  ((Digest.pad 128 (Bytes.ofNat 16 (8 * message.length)) message).chunks 128).foldl compress start

def digest (message : Bytes) : Bytes :=
  (run initial message).bytes

def digest384 (message : Bytes) : Bytes :=
  (run initial384 message).bytes.take 48

end RequestSigning.Sha512
