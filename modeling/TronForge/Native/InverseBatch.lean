import TronForge.Native.ChainAdvance

/-! The arrays and the two loops of `field_inverse_batch`: the running products on the
way down, and on the way up the inverse of the products that are left. -/

namespace TronForge.Native.CudaChain

/-- What the first loop leaves: which entries are zero, the products and the last one. -/
structure Prefixes where
  zeroes : List Bool
  prefixes : List Field
  product : Field

/-- One turn of the first loop. -/
def prefixStep (state : Prefixes) (value : Field) : Prefixes :=
  let zero := fieldIsZero value
  let product := fieldMultiply state.product (if zero then fieldFromSmall 1 else value)
  ⟨state.zeroes ++ [zero], state.prefixes ++ [product], product⟩

def prefixLoop (values : List Field) : Prefixes := values.foldl prefixStep ⟨[], [], fieldFromSmall 1⟩

/-- One turn of the second loop: the inverse so far and the array. -/
def inverseTurn (loop : Prefixes) (state : Field × List Field) (index : Nat) : Field × List Field :=
  let previous := if index = 0 then fieldFromSmall 1 else loop.prefixes.getD (index - 1) .zero
  let zero := loop.zeroes.getD index false
  let factor := if zero then fieldFromSmall 1 else state.2.getD index .zero
  let valueInverse := fieldMultiply state.1 previous
  (fieldMultiply state.1 factor, state.2.set index (if zero then .zero else valueInverse))

/-- `field_inverse_batch`. -/
def inverseBatch (values : List Field) : List Field :=
  let loop := prefixLoop values
  ((List.range values.length).reverse.foldl (inverseTurn loop) (fieldInverse loop.product, values)).2

/-- The factor of an entry in the running product. -/
def factor (value : Field) : Field := if fieldIsZero value then fieldFromSmall 1 else value

def prefixProduct (values : List Field) : Field :=
  values.foldl (fun product value => fieldMultiply product (factor value)) (fieldFromSmall 1)

theorem prefixProduct_concat (front : List Field) (value : Field) :
    prefixProduct (front ++ [value]) = fieldMultiply (prefixProduct front) (factor value) := by
  rw [prefixProduct, List.foldl_append, List.foldl_cons, List.foldl_nil, prefixProduct]

/-- The first loop keeps the product of every front. -/
theorem prefixLoop_eq (values : List Field) : prefixLoop values =
    ⟨values.map fieldIsZero, (List.range values.length).map fun index => prefixProduct (values.take (index + 1)),
      prefixProduct values⟩ := by
  induction values using List.reverseRecOn with
  | nil => rfl
  | append_singleton front value ih =>
    have unfolded : prefixLoop (front ++ [value]) = prefixStep (prefixLoop front) value := by
      rw [prefixLoop, List.foldl_append, List.foldl_cons, List.foldl_nil, prefixLoop]
    have products : (List.range front.length).map (fun index => prefixProduct ((front ++ [value]).take (index + 1))) =
        (List.range front.length).map fun index => prefixProduct (front.take (index + 1)) := by
      apply List.map_congr_left
      intro index member
      rw [List.take_append_of_le_length (List.mem_range.mp member)]
    have whole : (front ++ [value]).take (front.length + 1) = front ++ [value] :=
      List.take_of_length_le (by simp)
    rw [unfolded, ih, prefixStep, List.length_append, List.length_singleton, List.range_succ, List.map_append,
      List.map_append, products, List.map_singleton, List.map_singleton, whole, prefixProduct_concat, factor]

/-- One turn at an entry, with everything behind it already inverted. -/
theorem inverseTurn_at (front rest inverses : List Field) (value inverse : Field) :
    inverseTurn (prefixLoop (front ++ value :: rest)) (inverse, front ++ value :: inverses) front.length =
      (fieldMultiply inverse (factor value),
        front ++ (if fieldIsZero value then .zero else fieldMultiply inverse (prefixProduct front)) :: inverses) := by
  have previous : (if front.length = 0 then fieldFromSmall 1
      else (prefixLoop (front ++ value :: rest)).prefixes.getD (front.length - 1) .zero) = prefixProduct front := by
    by_cases first : front.length = 0
    · obtain rfl := List.length_eq_zero_iff.mp first
      rw [if_pos first, prefixProduct, List.foldl_nil]
    · have ahead : front.length - 1 < (front ++ value :: rest).length := by simp; omega
      have before : front.length - 1 + 1 = front.length := by omega
      rw [if_neg first, prefixLoop_eq, List.getD_eq_getElem _ _ (by simpa using ahead), List.getElem_map,
        List.getElem_range, before, List.take_left]
  have zero : (prefixLoop (front ++ value :: rest)).zeroes.getD front.length false = fieldIsZero value := by
    rw [prefixLoop_eq]
    simp
  have entry : (front ++ value :: inverses).getD front.length .zero = value := by simp
  simp only [inverseTurn, previous, zero, entry, factor]
  simp

/-- Going up from the last entry, the inverse stands for the products still ahead. -/
theorem inverseTurns_eq (front values : List Field) :
    (List.range' front.length values.length).reverse.foldl (inverseTurn (prefixLoop (front ++ values)))
        (fieldInverse (prefixProduct (front ++ values)), front ++ values) =
      ((inverseLoop (prefixProduct front) values).1, front ++ (inverseLoop (prefixProduct front) values).2) := by
  induction values generalizing front with
  | nil => simp [inverseLoop]
  | cons value rest ih =>
    have further := ih (front ++ [value])
    rw [List.append_assoc, List.singleton_append, List.length_append, List.length_singleton, prefixProduct_concat,
      List.append_assoc, List.singleton_append] at further
    rw [List.length_cons, List.range'_succ, List.reverse_cons, List.foldl_append, further, List.foldl_cons,
      List.foldl_nil, inverseTurn_at, inverseLoop, ← factor]

/-- The loops compute the recursion that the kernels' model is written with. -/
theorem inverseBatch_eq (values : List Field) : inverseBatch values = fieldInverseBatch values := by
  have turns := inverseTurns_eq [] values
  have product : (prefixLoop values).product = prefixProduct values := by rw [prefixLoop_eq]
  rw [List.nil_append, List.nil_append, List.length_nil, ← List.range_eq_range'] at turns
  simp only [inverseBatch, product, turns]
  rfl

/-- An inverse modulo the prime, or zero for zero. -/
def Inverts (value inverse : Field) : Prop :=
  inverse.value < fieldPrime ∧
    if value.value = 0 then inverse.value = 0 else value.value * inverse.value % fieldPrime = 1

theorem inverts_of_holds {value inverse : Field} {a : Residue} (same : Holds value a) (inverted : Holds inverse a⁻¹) :
    Inverts value inverse := by
  have valueSame : value.value = a.val := same
  have inverseSame : inverse.value = a⁻¹.val := inverted
  refine ⟨inverseSame ▸ residue_val_lt _, ?_⟩
  rw [valueSame, inverseSame]
  split
  · rename_i zero
    rw [(ZMod.val_eq_zero a).mp zero, inv_zero, ZMod.val_zero]
  · rename_i nonzero
    rw [← ZMod.val_mul, mul_inv_cancel₀ (fun zero => nonzero ((ZMod.val_eq_zero a).mpr zero)), ZMod.val_one]

theorem inverts_forall {values results : List Field} {residues : List Residue}
    (held : List.Forall₂ Holds values residues) (inverses : List.Forall₂ Holds results (residues.map (·⁻¹))) :
    List.Forall₂ Inverts values results := by
  induction held generalizing results with
  | nil =>
    cases inverses
    exact .nil
  | cons same held ih =>
    cases inverses with
    | cons inverted inverses => exact .cons (inverts_of_holds same inverted) (ih inverses)

/-- Every entry is replaced by its inverse, and zeros stay. -/
theorem inverseBatch_inverts (values : List Field) (canonical : ∀ value ∈ values, value.value < fieldPrime) :
    List.Forall₂ Inverts values (inverseBatch values) := by
  have held : List.Forall₂ Holds values (values.map fun value => (value.value : Residue)) := by
    rw [List.forall₂_map_right_iff, List.forall₂_same]
    intro value member
    exact (ZMod.val_natCast_of_lt (canonical value member)).symm
  have inverses := fieldInverseBatch_holds held
  rw [← inverseBatch_eq] at inverses
  exact inverts_forall held inverses

/-- A batch with a zero between other entries. -/
theorem inverseBatch_inverts_zero : List.Forall₂ Inverts [fieldFromSmall 2, .zero, fieldFromSmall 3]
    (inverseBatch [fieldFromSmall 2, .zero, fieldFromSmall 3]) := by
  apply inverseBatch_inverts
  intro value member
  have small : value.value < 4 := by
    rcases List.mem_cons.mp member with rfl | member
    · rw [fieldFromSmall_value]
      decide
    · rcases List.mem_cons.mp member with rfl | member
      · rw [zero_value]
        decide
      · rw [List.mem_singleton.mp member, fieldFromSmall_value]
        decide
  exact small.trans (by norm_num [fieldPrime])

end TronForge.Native.CudaChain
