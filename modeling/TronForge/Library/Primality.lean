import Mathlib.Data.List.Prime
import Mathlib.NumberTheory.LucasPrimality

/-! Primality from a primitive root and the factors of the predecessor. -/

namespace TronForge.Library

/-- A numeral is not one unless it is one modulo `p`. -/
theorem ofNat_ne_one {p number : Nat} [number.AtLeastTwo] (apart : number % p ≠ 1 % p) :
    (OfNat.ofNat number : ZMod p) ≠ 1 := by
  intro same
  have cast : ((number : Nat) : ZMod p) = ((1 : Nat) : ZMod p) := by
    rw [Nat.cast_one]
    exact same
  exact apart ((ZMod.natCast_eq_natCast_iff' number 1 p).mp cast)

/-- The factors of `p - 1` are prime, and the root's order divides no quotient
by one of them. -/
structure PrattCertificate (p : Nat) (root : ZMod p) (factors : List Nat) : Prop where
  primes : ∀ factor ∈ factors, factor.Prime
  product : factors.prod = p - 1
  unit : root ^ (p - 1) = 1
  order : ∀ factor ∈ factors, root ^ ((p - 1) / factor) ≠ 1

theorem PrattCertificate.prime {p : Nat} {root : ZMod p} {factors : List Nat}
    (certificate : PrattCertificate p root factors) : p.Prime := by
  apply lucas_primality p root certificate.unit
  intro divisor isPrime divides
  rw [← certificate.product] at divides
  obtain ⟨factor, member, same⟩ := isPrime.prime.dvd_prod_iff.mp divides
  have equal : divisor = factor :=
    (Nat.prime_dvd_prime_iff_eq isPrime (certificate.primes factor member)).mp same
  rw [equal]
  exact certificate.order factor member

end TronForge.Library
