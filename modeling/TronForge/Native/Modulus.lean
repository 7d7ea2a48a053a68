import Mathlib.Tactic.NormNum.Prime
import Mathlib.Tactic.ReduceModChar
import TronForge.Library.Primality

/-! The field of secp256k1: its modulus is prime, by a chain of certificates for
the large factors below it. -/

namespace TronForge.Native

open Library

/-- The modulus `2^256 - 2^32 - 977`. -/
def fieldPrime : Nat := 0xfffffffffffffffffffffffffffffffffffffffffffffffffffffffefffffc2f

example : fieldPrime = 2 ^ 256 - 2 ^ 32 - 977 := by norm_num [fieldPrime]

theorem factor_58_prime : Nat.Prime 173378833005251801 := by
  have certificate : PrattCertificate 173378833005251801 6
      [2, 2, 2, 5, 5, 2621, 24809, 13331831] := by
    refine ⟨?_, by norm_num, by reduce_mod_char, ?_⟩
    · simp only [List.forall_mem_cons, List.not_mem_nil, false_implies, implies_true, and_true]
      norm_num
    · simp only [List.forall_mem_cons, List.not_mem_nil, false_implies, implies_true, and_true]
      norm_num
      refine ⟨?_, ?_, ?_, ?_, ?_⟩ <;> (reduce_mod_char; exact ofNat_ne_one (by norm_num))
  exact certificate.prime

theorem factor_75_prime : Nat.Prime 22149492674086928081353 := by
  have certificate : PrattCertificate 22149492674086928081353 5
      [2, 2, 2, 3, 5323, 173378833005251801] := by
    refine ⟨?_, by norm_num, by reduce_mod_char, ?_⟩
    · simp only [List.forall_mem_cons, List.not_mem_nil, false_implies, implies_true, and_true]
      refine ⟨?_, ?_, ?_, ?_, ?_, factor_58_prime⟩ <;> norm_num
    · simp only [List.forall_mem_cons, List.not_mem_nil, false_implies, implies_true, and_true]
      norm_num
      refine ⟨?_, ?_, ?_, ?_⟩ <;> (reduce_mod_char; exact ofNat_ne_one (by norm_num))
  exact certificate.prime

theorem factor_77_prime : Nat.Prime 132896956044521568488119 := by
  have certificate : PrattCertificate 132896956044521568488119 6
      [2, 3, 22149492674086928081353] := by
    refine ⟨?_, by norm_num, by reduce_mod_char, ?_⟩
    · simp only [List.forall_mem_cons, List.not_mem_nil, false_implies, implies_true, and_true]
      refine ⟨?_, ?_, factor_75_prime⟩ <;> norm_num
    · simp only [List.forall_mem_cons, List.not_mem_nil, false_implies, implies_true, and_true]
      norm_num
      refine ⟨?_, ?_, ?_⟩ <;> (reduce_mod_char; exact ofNat_ne_one (by norm_num))
  exact certificate.prime

theorem factor_128_prime : Nat.Prime 255515944373312847190720520512484175977 := by
  have certificate : PrattCertificate 255515944373312847190720520512484175977 3
      [2, 2, 2, 7, 7, 11, 1627, 2657, 4423, 41201, 96557, 107590001, 7240687] := by
    refine ⟨?_, by norm_num, by reduce_mod_char, ?_⟩
    · simp only [List.forall_mem_cons, List.not_mem_nil, false_implies, implies_true, and_true]
      norm_num
    · simp only [List.forall_mem_cons, List.not_mem_nil, false_implies, implies_true, and_true]
      norm_num
      refine ⟨?_, ?_, ?_, ?_, ?_, ?_, ?_, ?_, ?_, ?_⟩ <;> (reduce_mod_char; exact ofNat_ne_one (by norm_num))
  exact certificate.prime

theorem factor_237_prime :
    Nat.Prime 205115282021455665897114700593932402728804164701536103180137503955397371 := by
  have certificate : PrattCertificate
      205115282021455665897114700593932402728804164701536103180137503955397371 10
      [2, 3, 5, 29, 29, 31, 7723, 255515944373312847190720520512484175977,
        132896956044521568488119] := by
    refine ⟨?_, by norm_num, by reduce_mod_char, ?_⟩
    · simp only [List.forall_mem_cons, List.not_mem_nil, false_implies, implies_true, and_true]
      refine ⟨?_, ?_, ?_, ?_, ?_, ?_, ?_, factor_128_prime, factor_77_prime⟩ <;> norm_num
    · simp only [List.forall_mem_cons, List.not_mem_nil, false_implies, implies_true, and_true]
      norm_num
      refine ⟨?_, ?_, ?_, ?_, ?_, ?_, ?_, ?_⟩ <;> (reduce_mod_char; exact ofNat_ne_one (by norm_num))
  exact certificate.prime

theorem fieldPrime_prime : fieldPrime.Prime := by
  have value : fieldPrime =
      115792089237316195423570985008687907853269984665640564039457584007908834671663 := by
    norm_num [fieldPrime]
  have certificate : PrattCertificate
      115792089237316195423570985008687907853269984665640564039457584007908834671663 3
      [2, 3, 7, 13441, 205115282021455665897114700593932402728804164701536103180137503955397371] := by
    refine ⟨?_, by norm_num, by reduce_mod_char, ?_⟩
    · simp only [List.forall_mem_cons, List.not_mem_nil, false_implies, implies_true, and_true]
      refine ⟨?_, ?_, ?_, ?_, factor_237_prime⟩ <;> norm_num
    · simp only [List.forall_mem_cons, List.not_mem_nil, false_implies, implies_true, and_true]
      norm_num
      refine ⟨?_, ?_, ?_, ?_, ?_⟩ <;> (reduce_mod_char; exact ofNat_ne_one (by norm_num))
  rw [value]
  exact certificate.prime

instance : Fact fieldPrime.Prime := ⟨fieldPrime_prime⟩


/-- A wrapped difference below the modulus is the residue of the difference. -/
theorem residue_of_difference (left : Nat) {right : Nat} (small : right < fieldPrime) :
    (((left + (fieldPrime - right)) % fieldPrime : Nat) : Int) = ((left : Int) - right) % fieldPrime := by
  have sum : ((left + (fieldPrime - right) : Nat) : Int) = left - right + fieldPrime := by omega
  rw [Int.natCast_emod, sum, Int.add_emod_right]

end TronForge.Native
