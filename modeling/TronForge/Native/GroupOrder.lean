import Mathlib.Tactic.NormNum.Prime
import Mathlib.Tactic.ReduceModChar
import TronForge.Library.Primality

/-! The order of the group is prime. -/

namespace TronForge.Native

open Library

/-- The order of the generator. -/
def groupOrder : Nat := 0xfffffffffffffffffffffffffffffffebaaedce6af48a03bbfd25e8cd0364141

theorem order_factor_30_prime : Nat.Prime 545358713 := by
  have certificate : PrattCertificate 545358713 5
      [2, 2, 2, 41, 59, 28181] := by
    refine ⟨?_, by norm_num, by reduce_mod_char, ?_⟩
    · simp only [List.forall_mem_cons, List.not_mem_nil, false_implies, implies_true, and_true]
      norm_num
    · simp only [List.forall_mem_cons, List.not_mem_nil, false_implies, implies_true, and_true]
      norm_num
      refine ⟨?_, ?_, ?_, ?_⟩ <;> (reduce_mod_char; exact ofNat_ne_one (by norm_num))
  exact certificate.prime

theorem order_factor_39_prime : Nat.Prime 297159362677 := by
  have certificate : PrattCertificate 297159362677 2
      [2, 2, 3, 3, 11, 461, 1627771] := by
    refine ⟨?_, by norm_num, by reduce_mod_char, ?_⟩
    · simp only [List.forall_mem_cons, List.not_mem_nil, false_implies, implies_true, and_true]
      norm_num
    · simp only [List.forall_mem_cons, List.not_mem_nil, false_implies, implies_true, and_true]
      norm_num
      refine ⟨?_, ?_, ?_, ?_, ?_⟩ <;> (reduce_mod_char; exact ofNat_ne_one (by norm_num))
  exact certificate.prime

theorem order_factor_57_prime : Nat.Prime 107361793816595537 := by
  have certificate : PrattCertificate 107361793816595537 3
      [2, 2, 2, 2, 16699, 85831, 4681609] := by
    refine ⟨?_, by norm_num, by reduce_mod_char, ?_⟩
    · simp only [List.forall_mem_cons, List.not_mem_nil, false_implies, implies_true, and_true]
      norm_num
    · simp only [List.forall_mem_cons, List.not_mem_nil, false_implies, implies_true, and_true]
      norm_num
      refine ⟨?_, ?_, ?_, ?_⟩ <;> (reduce_mod_char; exact ofNat_ne_one (by norm_num))
  exact certificate.prime

theorem order_factor_68_prime : Nat.Prime 174723607534414371449 := by
  have certificate : PrattCertificate 174723607534414371449 3
      [2, 2, 2, 17, 59, 4051, 120233, 44706919] := by
    refine ⟨?_, by norm_num, by reduce_mod_char, ?_⟩
    · simp only [List.forall_mem_cons, List.not_mem_nil, false_implies, implies_true, and_true]
      norm_num
    · simp only [List.forall_mem_cons, List.not_mem_nil, false_implies, implies_true, and_true]
      norm_num
      refine ⟨?_, ?_, ?_, ?_, ?_, ?_⟩ <;> (reduce_mod_char; exact ofNat_ne_one (by norm_num))
  exact certificate.prime

theorem order_factor_95_prime : Nat.Prime 29047611873442575647497758179 := by
  have certificate : PrattCertificate 29047611873442575647497758179 2
      [2, 293, 305873, 545358713, 297159362677] := by
    refine ⟨?_, by norm_num, by reduce_mod_char, ?_⟩
    · simp only [List.forall_mem_cons, List.not_mem_nil, false_implies, implies_true, and_true]
      refine ⟨?_, ?_, ?_, order_factor_30_prime, order_factor_39_prime⟩ <;> norm_num
    · simp only [List.forall_mem_cons, List.not_mem_nil, false_implies, implies_true, and_true]
      norm_num
      refine ⟨?_, ?_, ?_, ?_, ?_⟩ <;> (reduce_mod_char; exact ofNat_ne_one (by norm_num))
  exact certificate.prime

theorem order_factor_109_prime : Nat.Prime 341948486974166000522343609283189 := by
  have certificate : PrattCertificate 341948486974166000522343609283189 2
      [2, 2, 3, 3, 3, 109, 29047611873442575647497758179] := by
    refine ⟨?_, by norm_num, by reduce_mod_char, ?_⟩
    · simp only [List.forall_mem_cons, List.not_mem_nil, false_implies, implies_true, and_true]
      refine ⟨?_, ?_, ?_, ?_, ?_, ?_, order_factor_95_prime⟩ <;> norm_num
    · simp only [List.forall_mem_cons, List.not_mem_nil, false_implies, implies_true, and_true]
      norm_num
      refine ⟨?_, ?_, ?_, ?_⟩ <;> (reduce_mod_char; exact ofNat_ne_one (by norm_num))
  exact certificate.prime

theorem groupOrder_prime : groupOrder.Prime := by
  have value : groupOrder =
      115792089237316195423570985008687907852837564279074904382605163141518161494337 := by
    norm_num [groupOrder]
  have certificate : PrattCertificate
      115792089237316195423570985008687907852837564279074904382605163141518161494337 7
      [2, 2, 2, 2, 2, 2, 3, 149, 631, 107361793816595537, 174723607534414371449,
        341948486974166000522343609283189] := by
    refine ⟨?_, by norm_num, by reduce_mod_char, ?_⟩
    · simp only [List.forall_mem_cons, List.not_mem_nil, false_implies, implies_true, and_true]
      refine ⟨?_, ?_, ?_, ?_, ?_, ?_, ?_, ?_, ?_, order_factor_57_prime, order_factor_68_prime,
        order_factor_109_prime⟩ <;> norm_num
    · simp only [List.forall_mem_cons, List.not_mem_nil, false_implies, implies_true, and_true]
      norm_num
      refine ⟨?_, ?_, ?_, ?_, ?_, ?_, ?_⟩ <;> (reduce_mod_char; exact ofNat_ne_one (by norm_num))
  rw [value]
  exact certificate.prime

instance : Fact groupOrder.Prime := ⟨groupOrder_prime⟩

end TronForge.Native
