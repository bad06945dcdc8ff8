set_option autoImplicit false

namespace RequestSigning.Rsa

/-- Square and multiply over at most `limit` bits of the exponent. -/
def powModWithin (m : Nat) : (limit : Nat) → (b e : Nat) → Nat
  | 0, _, _ => 1 % m
  | limit + 1, b, e =>
    if e = 0 then 1 % m
    else
      let half := powModWithin m limit (b * b % m) (e / 2)
      if e % 2 = 1 then b * half % m else half

/-- `b ^ e % m`. -/
def powMod (b e m : Nat) : Nat :=
  powModWithin m (e.log2 + 1) b e

/-- At most `limit` steps of Euclid's algorithm on `r` and `s`, which stay congruent to `x * a`
and `y * a` modulo the first `r`. -/
def euclid : (limit r s : Nat) → (x y : Int) → Nat × Int
  | 0, r, _, x, _ => (r, x)
  | limit + 1, r, s, x, y =>
    if s = 0 then (r, x) else euclid limit s (r % s) y (x - (r / s : Nat) * y)

/-- The inverse of `a` modulo `m`, where they have no common divisor. Two steps of Euclid's
algorithm halve the remainder, which bounds their number. -/
def inverse? (a m : Nat) : Option Nat :=
  let (divisor, factor) := euclid (2 * m.log2 + 3) m (a % m) 0 1
  if divisor = 1 then some (factor % m).toNat else none

end RequestSigning.Rsa
