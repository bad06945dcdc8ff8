import RequestSigning.Proofs.Rsa.Signature
set_option autoImplicit false

namespace RequestSigning.Rsa

/-- One number of a certificate of primes: the prime factors of the number before it, each as
often as it divides that, and a base whose powers tell that there is no other order. -/
structure PrimalityStep where
  number : Nat
  base : Nat
  factors : List Nat

namespace PrimalityStep

variable {known : List Nat} {step : PrimalityStep} {steps : List PrimalityStep}

/-- Lucas's test, of a number whose factors are known. -/
structure Holds (known : List Nat) (step : PrimalityStep) : Prop where
  one_lt : 1 < step.number
  product : step.factors.prod = step.number - 1
  known : ∀ factor ∈ step.factors, factor ∈ known
  whole : powMod step.base (step.number - 1) step.number = 1
  proper : ∀ factor ∈ step.factors, powMod step.base ((step.number - 1) / factor) step.number ≠ 1

theorem holds_iff : step.Holds known ↔
    1 < step.number ∧ step.factors.prod = step.number - 1 ∧
      (∀ factor ∈ step.factors, factor ∈ known) ∧
      powMod step.base (step.number - 1) step.number = 1 ∧
      ∀ factor ∈ step.factors, powMod step.base ((step.number - 1) / factor) step.number ≠ 1 :=
  ⟨fun ⟨a, b, c, d, e⟩ => ⟨a, b, c, d, e⟩, fun ⟨a, b, c, d, e⟩ => ⟨a, b, c, d, e⟩⟩

instance (known : List Nat) (step : PrimalityStep) : Decidable (step.Holds known) :=
  decidable_of_iff' _ holds_iff

theorem pow_eq_one_iff {m : Nat} (one_lt : 1 < m) (base e : Nat) :
    (base : ZMod m) ^ e = 1 ↔ powMod base e m = 1 := by
  rw [powMod_eq, ← Nat.cast_pow, ← Nat.cast_one, ZMod.natCast_eq_natCast_iff',
    Nat.mod_eq_of_lt one_lt]

theorem Holds.prime (holds : step.Holds known) (primes : ∀ n ∈ known, n.Prime) :
    step.number.Prime := by
  apply lucas_primality step.number step.base
  · exact (pow_eq_one_iff holds.one_lt _ _).mpr holds.whole
  · intro factor prime divides
    rw [← holds.product] at divides
    obtain ⟨listed, inside, divides⟩ := (Prime.dvd_prod_iff prime.prime).mp divides
    have same := (Nat.prime_dvd_prime_iff_eq prime (primes _ (holds.known _ inside))).mp divides
    rw [ne_eq, pow_eq_one_iff holds.one_lt, same]
    exact holds.proper listed inside

/-- Each number may have those before it as factors. -/
def check (known : List Nat) : List PrimalityStep → Bool
  | [] => true
  | step :: later => decide (step.Holds known) && check (step.number :: known) later

theorem prime_of_check (primes : ∀ n ∈ known, n.Prime) (checked : check known steps = true) :
    ∀ n ∈ steps.map number, n.Prime := by
  induction steps generalizing known with
  | nil => exact List.forall_mem_nil _
  | cons step later ih =>
    rw [check, Bool.and_eq_true, decide_eq_true_eq] at checked
    have here := checked.1.prime primes
    rw [List.map_cons, List.forall_mem_cons]
    exact ⟨here, ih (List.forall_mem_cons.mpr ⟨here, primes⟩) checked.2⟩

end PrimalityStep

end RequestSigning.Rsa
