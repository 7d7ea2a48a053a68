import TronForge.Native.Winner

/-! The batched kernel: nine candidates of a batch from one inversion, the lanes'
batches, and the one kind of batch that goes wrong. -/

namespace TronForge.Native.CudaSecp

open Library

/-- The centre of a batch is on its point, and is value-initialised at infinity. -/
structure CentreOf (P : CurvePoint) (center : AffinePoint) : Prop where
  stands : Represents center P
  zeroed : center.infinity = true → center = .atInfinity

theorem CentreOf.add {P Q : CurvePoint} {center stride : AffinePoint} (centre : CentreOf P center)
    (stands : Represents stride Q) (finite : Q ≠ 0) : CentreOf (P + Q) (pointAdd center stride) := by
  have strideFinite : stride.infinity = false :=
    Bool.eq_false_iff.mpr (fun infinite => finite (stands.infinity_iff.mp infinite))
  refine ⟨represents_add centre.stands stands, ?_⟩
  intro infinite
  rw [pointAdd] at infinite ⊢
  cases centerInfinite : center.infinity with
  | true =>
    rw [Native.pointAdd, if_pos centerInfinite, strideFinite] at infinite
    cases infinite
  | false => exact pointAdd_infinity centerInfinite strideFinite infinite

section
variable {launch : BatchedLaunch}

theorem inRange_indices (candidate : AffinePoint) (index : Nat) :
    (launch.inRange candidate index).map (·.index) = [index].filter (· < launch.rangeCount) := by
  by_cases inside : index < launch.rangeCount
  · simp [BatchedLaunch.inRange, inside]
  · simp [BatchedLaunch.inRange, inside]

theorem mem_inRange {candidate : AffinePoint} {index : Nat} {evaluation : Evaluation Field}
    (member : evaluation ∈ launch.inRange candidate index) : evaluation = ⟨candidate, index⟩ := by
  rw [BatchedLaunch.inRange] at member
  split at member
  · exact List.mem_singleton.mp member
  · cases member

theorem inRange_mem (candidate : AffinePoint) {index : Nat} (inside : index < launch.rangeCount) :
    ⟨candidate, index⟩ ∈ launch.inRange candidate index := by
  rw [BatchedLaunch.inRange, if_pos inside]
  exact List.mem_singleton.mpr rfl

/-- The indices of the two candidates of a table point. -/
def symmetricIndices (centerIndex index : Nat) : List Nat := [centerIndex - (index + 1), centerIndex + (index + 1)]

theorem wrap_below {centerIndex distance : Nat} (inside : distance ≤ centerIndex) (unsigned : centerIndex < 2 ^ 64) :
    wrap (centerIndex + 2 ^ 64 - distance) = centerIndex - distance := by
  have apart : centerIndex + 2 ^ 64 - distance = centerIndex - distance + 2 ^ 64 := by omega
  rw [wrap, apart, Nat.add_mod_right]
  exact Nat.mod_eq_of_lt (by omega)

theorem batchLoop_indices (center : AffinePoint) (centerIndex : Nat) (previous : Field) (index : Nat)
    (table : List AffinePoint) (low : index + table.length ≤ centerIndex)
    (high : centerIndex + (index + table.length) < 2 ^ 64) :
    (batchLoop launch center centerIndex previous index table).2.map (·.index) =
      ((List.range' index table.length).reverse.flatMap (symmetricIndices centerIndex)).filter
        (· < launch.rangeCount) := by
  induction table generalizing previous index with
  | nil => rfl
  | cons point rest hypothesis =>
    rw [List.length_cons] at low high
    have negative : wrap (centerIndex + 2 ^ 64 - (index + 1)) = centerIndex - (index + 1) :=
      wrap_below (by omega) (by omega)
    have positive : wrap (centerIndex + (index + 1)) = centerIndex + (index + 1) := Nat.mod_eq_of_lt (by omega)
    have tail := fun previous => hypothesis previous (index + 1) (by omega) (by omega)
    have pair : (symmetricIndices centerIndex index).filter (· < launch.rangeCount) =
        [centerIndex - (index + 1)].filter (· < launch.rangeCount) ++
          [centerIndex + (index + 1)].filter (· < launch.rangeCount) := by
      rw [← List.filter_append]
      rfl
    rw [List.length_cons, List.range'_succ, List.reverse_cons, List.flatMap_append, List.flatMap_singleton,
      List.filter_append, pair]
    simp only [batchLoop, negative, positive]
    split
    · simp only [List.map_append, inRange_indices, tail, List.append_assoc]
    · simp only [List.map_append, inRange_indices, tail, List.append_assoc]

/-- The running inverse on the way down. -/
theorem batchLoop_inverse {center : AffinePoint} {centerIndex : Nat} {a : Residue} (holdsCenter : Holds center.x a)
    {table : List AffinePoint} (held : ∀ point ∈ table, ∃ b : Residue, Holds point.x b) {previous : Field}
    {c : Residue} (product : Holds previous c) (nonzero : c ≠ 0) (index : Nat) :
    Holds (batchLoop launch center centerIndex previous index table).1 c⁻¹ := by
  induction table generalizing previous c index with
  | nil => exact product.inverse
  | cons point rest hypothesis =>
    obtain ⟨b, holdsX⟩ := held point List.mem_cons_self
    have denominator : Holds (fieldSubtract point.x center.x) (b - a) := holdsX.subtract holdsCenter
    have factorHolds : Holds (if fieldIsZero (fieldSubtract point.x center.x) then fieldFromSmall 1
        else fieldSubtract point.x center.x) (factorOf (b - a)) := factor_holds denominator
    have zero_iff : fieldIsZero (fieldSubtract point.x center.x) = true ↔ b - a = 0 := denominator.isZero_iff
    have inverse := hypothesis (fun other member => held other (List.mem_cons_of_mem _ member))
      (product.multiply factorHolds) (mul_ne_zero nonzero (factorOf_ne_zero _)) (index + 1)
    simp only [batchLoop]
    by_cases zero : b - a = 0
    · rw [zero, factorOf_zero, mul_one] at inverse
      rw [if_pos (zero_iff.mpr zero)]
      exact inverse
    · rw [factorOf_nonzero zero] at inverse
      rw [if_neg (mt zero_iff.mp zero)]
      exact inverse.stepDown denominator zero

/-- An evaluation has the candidate of its index. -/
def Exact (P : CurvePoint) (evaluation : Evaluation Field) : Prop :=
  Represents evaluation.candidate (P + evaluation.index • generator)

/-- The table from an index on. -/
def TableFrom (index : Nat) (table : List AffinePoint) : Prop :=
  List.Forall₂ Represents table ((List.range' index table.length).map fun index => (index + 1) • generator)

theorem TableFrom.cons {index : Nat} {point : AffinePoint} {rest : List AffinePoint}
    (stand : TableFrom index (point :: rest)) :
    Represents point ((index + 1) • generator) ∧ TableFrom (index + 1) rest := by
  rw [TableFrom, List.length_cons, List.range'_succ, List.map_cons, List.forall₂_cons] at stand
  exact stand

theorem small_nsmul_generator {scalar : Nat} (positive : 0 < scalar) (small : scalar < 2 ^ 64) :
    scalar • generator ≠ 0 := by
  apply nsmul_generator_ne_zero positive
  apply small.trans
  rw [groupOrder]
  norm_num

theorem TableFrom.abscissas {index : Nat} {table : List AffinePoint} (stand : TableFrom index table)
    (small : index + table.length < 2 ^ 64) : ∀ point ∈ table, ∃ b : Residue, Holds point.x b := by
  induction table generalizing index with
  | nil => simp
  | cons point rest hypothesis =>
    obtain ⟨stands, rests⟩ := stand.cons
    rw [List.length_cons] at small
    intro other member
    rcases List.mem_cons.mp member with rfl | later
    · obtain ⟨a, b, onCurve, -, -, holdsX, -⟩ :=
        Represents.coordinates stands (small_nsmul_generator (by omega) (by omega))
      exact ⟨a, holdsX⟩
    · exact hypothesis rests (by omega) other later

/-- The chord with the denominator of a batch. -/
theorem pointAddWithInverse_represents {center point : AffinePoint} {P Q : CurvePoint} (stands : Represents center P)
    (pointStands : Represents point Q) (finite : center.infinity = false) (pointFinite : point.infinity = false)
    {a b : Residue} (holdsCenter : Holds center.x a) (holdsX : Holds point.x b) (apart : b - a ≠ 0)
    {inverse : Field} (holdsInverse : Holds inverse (b - a)⁻¹) :
    Represents (pointAddWithInverse center point inverse) (P + Q) := by
  have differ : FieldRoutines.fieldEqual center.x point.x = false := by
    rw [Bool.eq_false_iff, ne_eq, holdsCenter.equal_iff holdsX]
    exact fun same => apart (by rw [same, sub_self])
  exact represents_chord stands pointStands finite pointFinite differ holdsInverse (holdsX.subtract holdsCenter)

/-- The candidates of a batch around a finite centre. -/
theorem batchLoop_exact {center : AffinePoint} {centerIndex : Nat} {P : CurvePoint}
    (stands : Represents center (P + centerIndex • generator)) (finite : P + centerIndex • generator ≠ 0)
    {table : List AffinePoint} {index : Nat} (stand : TableFrom index table) (low : index + table.length ≤ centerIndex)
    (high : centerIndex + (index + table.length) < 2 ^ 64) {previous : Field} {c : Residue}
    (product : Holds previous c) (nonzero : c ≠ 0) :
    ∀ evaluation ∈ (batchLoop launch center centerIndex previous index table).2, Exact P evaluation := by
  induction table generalizing previous c index with
  | nil => simp [batchLoop]
  | cons point rest hypothesis =>
    obtain ⟨pointStands, rests⟩ := stand.cons
    rw [List.length_cons] at low high
    have pointFinite : (index + 1) • generator ≠ 0 := small_nsmul_generator (by omega) (by omega)
    obtain ⟨a, d, -, -, centerFinite, holdsCenter, -⟩ := Represents.coordinates stands finite
    obtain ⟨b, e, -, -, pointInfinity, holdsX, -⟩ := Represents.coordinates pointStands pointFinite
    have denominator : Holds (fieldSubtract point.x center.x) (b - a) := holdsX.subtract holdsCenter
    have factorHolds : Holds (if fieldIsZero (fieldSubtract point.x center.x) then fieldFromSmall 1
        else fieldSubtract point.x center.x) (factorOf (b - a)) := factor_holds denominator
    have oppositeStands := represents_opposite pointStands pointInfinity
    have negative : wrap (centerIndex + 2 ^ 64 - (index + 1)) = centerIndex - (index + 1) :=
      wrap_below (by omega) (by omega)
    have positive : wrap (centerIndex + (index + 1)) = centerIndex + (index + 1) := Nat.mod_eq_of_lt (by omega)
    have below : P + centerIndex • generator + -((index + 1) • generator) =
        P + (centerIndex - (index + 1)) • generator := by
      rw [add_assoc, ← sub_nsmul generator (by omega : index + 1 ≤ centerIndex)]
    have above : P + centerIndex • generator + (index + 1) • generator =
        P + (centerIndex + (index + 1)) • generator := by
      rw [add_assoc, ← add_nsmul]
    have zero_iff : fieldIsZero (fieldSubtract point.x center.x) = true ↔ b - a = 0 := denominator.isZero_iff
    have tail := hypothesis rests (by omega) (by omega) (product.multiply factorHolds)
      (mul_ne_zero nonzero (factorOf_ne_zero _))
    intro evaluation member
    simp only [batchLoop, negative, positive] at member
    by_cases zero : b - a = 0
    · rw [if_pos (zero_iff.mpr zero), List.mem_append, List.mem_append] at member
      rcases member with (later | left) | right
      · exact tail evaluation later
      · rw [mem_inRange left, Exact, ← below]
        exact represents_add stands oppositeStands
      · rw [mem_inRange right, Exact, ← above]
        exact represents_add stands pointStands
    · have inverse : Holds (batchLoop launch center centerIndex (fieldMultiply previous
          (if fieldIsZero (fieldSubtract point.x center.x) then fieldFromSmall 1
            else fieldSubtract point.x center.x)) (index + 1) rest).1 (c * factorOf (b - a))⁻¹ :=
        batchLoop_inverse holdsCenter (rests.abscissas (by omega)) (product.multiply factorHolds)
          (mul_ne_zero nonzero (factorOf_ne_zero _)) (index + 1)
      rw [factorOf_nonzero zero] at inverse
      have denominatorInverse := inverse.lastInverse product nonzero
      rw [if_neg (mt zero_iff.mp zero), List.mem_append, List.mem_append] at member
      rcases member with (later | left) | right
      · exact tail evaluation later
      · rw [mem_inRange left, Exact, ← below]
        exact pointAddWithInverse_represents stands oppositeStands centerFinite rfl holdsCenter holdsX zero
          denominatorInverse
      · rw [mem_inRange right, Exact, ← above]
        exact pointAddWithInverse_represents stands pointStands centerFinite pointInfinity holdsCenter holdsX zero
          denominatorInverse

/-- Around a centre at infinity the candidate that is furthest below is wrong. -/
theorem batchLoop_infinity {centerIndex : Nat} {table : List AffinePoint} {index : Nat}
    (stand : TableFrom index table) (some : 0 < table.length) (low : index + table.length ≤ centerIndex)
    (high : centerIndex + (index + table.length) < 2 ^ 64) (small : 3 * (index + table.length) < 2 ^ 64)
    (inside : centerIndex - (index + table.length) < launch.rangeCount) {previous : Field} {c : Residue}
    (product : Holds previous c) (nonzero : c ≠ 0) :
    ∃ evaluation ∈ (batchLoop launch .atInfinity centerIndex previous index table).2,
      evaluation.index = centerIndex - (index + table.length) ∧
      ¬ Represents evaluation.candidate (-((index + table.length) • generator)) := by
  induction table generalizing previous c index with
  | nil => exact absurd some (Nat.lt_irrefl 0)
  | cons point rest hypothesis =>
    obtain ⟨pointStands, rests⟩ := stand.cons
    rw [List.length_cons] at low high small inside ⊢
    have pointFinite : (index + 1) • generator ≠ 0 := small_nsmul_generator (by omega) (by omega)
    have two : 2 • (index + 1) • generator ≠ 0 := by
      rw [← mul_nsmul']
      exact small_nsmul_generator (by omega) (by omega)
    have three : 3 • (index + 1) • generator ≠ 0 := by
      rw [← mul_nsmul']
      exact small_nsmul_generator (by omega) (by omega)
    obtain ⟨b, e, onCurve, place, pointInfinity, holdsX, -⟩ := Represents.coordinates pointStands pointFinite
    have nonzeroB : b - 0 ≠ 0 := by
      rw [sub_zero]
      rw [place] at two three
      exact abscissa_ne_zero three (ordinate_ne_zero two)
    have holdsCenter : Holds (AffinePoint.atInfinity : AffinePoint).x 0 := holds_zero
    have denominator : Holds (fieldSubtract point.x (AffinePoint.atInfinity : AffinePoint).x) (b - 0) :=
      holdsX.subtract holdsCenter
    have factorHolds : Holds (if fieldIsZero (fieldSubtract point.x (AffinePoint.atInfinity : AffinePoint).x)
        then fieldFromSmall 1 else fieldSubtract point.x (AffinePoint.atInfinity : AffinePoint).x)
        (factorOf (b - 0)) := factor_holds denominator
    have zero_iff : fieldIsZero (fieldSubtract point.x (AffinePoint.atInfinity : AffinePoint).x) = true ↔ b - 0 = 0 :=
      denominator.isZero_iff
    simp only [batchLoop]
    rw [if_neg (mt zero_iff.mp nonzeroB)]
    cases rest with
    | nil =>
      have inverse : Holds (batchLoop launch .atInfinity centerIndex (fieldMultiply previous
          (if fieldIsZero (fieldSubtract point.x (AffinePoint.atInfinity : AffinePoint).x) then fieldFromSmall 1
            else fieldSubtract point.x (AffinePoint.atInfinity : AffinePoint).x)) (index + 1) []).1
          (c * factorOf (b - 0))⁻¹ := (product.multiply factorHolds).inverse
      rw [factorOf_nonzero nonzeroB] at inverse
      have negative : wrap (centerIndex + 2 ^ 64 - (index + 1)) = centerIndex - (index + 1) :=
        wrap_below low (by omega)
      have here := chord_from_infinity pointStands two three holdsX (inverse.lastInverse product nonzero)
      rw [negative]
      exact ⟨_, List.mem_append_left _ (List.mem_append_right _ (inRange_mem _ inside)), rfl, here⟩
    | cons next rest =>
      have sum : index + ((next :: rest).length + 1) = index + 1 + (next :: rest).length := by omega
      rw [sum] at inside ⊢
      obtain ⟨evaluation, member, place, wrong⟩ := hypothesis rests (by simp) (by omega) (by omega) (by omega) inside
        (product.multiply factorHolds) (mul_ne_zero nonzero (factorOf_ne_zero _))
      exact ⟨evaluation, List.mem_append_left _ (List.mem_append_left _ member), place, wrong⟩

/-- The indices of a batch. -/
def batchIndices (batch : Nat) : List Nat :=
  (batch * 9 + 4) :: ((List.range' 0 4).reverse.flatMap (symmetricIndices (batch * 9 + 4)))

theorem mem_batchIndices (batch index : Nat) : index ∈ batchIndices batch ↔ index / 9 = batch := by
  rw [Nat.div_eq_iff (by omega)]
  simp [batchIndices, symmetricIndices, List.range']
  omega

theorem nodup_batchIndices (batch : Nat) : (batchIndices batch).Nodup := by
  simp [batchIndices, symmetricIndices, List.range']
  omega

/-- The arguments of a launch from the start `P`. The session admits ranges up to
`2^26`, and a grid has less than `2^42` threads, so no index overflows. -/
structure Arguments (launch : BatchedLaunch) (P : CurvePoint) : Prop where
  start : Represents launch.rangeStartPoint P
  finite : P ≠ 0
  stride : Represents launch.laneStridePoint ((launch.laneCount * 9) • generator)
  table : List.Forall₂ Represents launch.batchTable ((List.range 4).map fun index => (index + 1) • generator)
  lanes : 0 < launch.laneCount
  unsigned : launch.rangeCount + (launch.laneCount * 9 + 9) ≤ 2 ^ 64

theorem Arguments.tableFrom {P : CurvePoint} (arguments : Arguments launch P) :
    launch.batchTable.length = 4 ∧ TableFrom 0 launch.batchTable := by
  have length : launch.batchTable.length = 4 := by
    rw [arguments.table.length_eq, List.length_map, List.length_range]
  refine ⟨length, ?_⟩
  rw [TableFrom, length, ← List.range_eq_range']
  exact arguments.table

theorem Arguments.lt_batchCount {P : CurvePoint} (arguments : Arguments launch P) (batch : Nat) :
    batch < launch.batchCount ↔ batch * 9 < launch.rangeCount := by
  have unsigned := arguments.unsigned
  have exact_ : wrap (launch.rangeCount + batchSpan - 1) = launch.rangeCount + 8 :=
    Nat.mod_eq_of_lt (by simp only [batchSpan, batchRadius]; omega)
  rw [BatchedLaunch.batchCount, exact_, batchSpan, batchRadius]
  omega

theorem Arguments.centre_lt {P : CurvePoint} (arguments : Arguments launch P) {batch : Nat}
    (inside : batch < launch.batchCount) : batch * 9 + 4 + (launch.laneCount * 9 + 4) < 2 ^ 64 := by
  have unsigned := arguments.unsigned
  rw [arguments.lt_batchCount] at inside
  omega

theorem batchEvaluations_indices {P : CurvePoint} (arguments : Arguments launch P) (center : AffinePoint) {batch : Nat}
    (inside : batch < launch.batchCount) :
    (batchEvaluations launch center (batch * 9 + 4)).map (·.index) =
      (batchIndices batch).filter (· < launch.rangeCount) := by
  have length := arguments.tableFrom.1
  have small := arguments.centre_lt inside
  have loop := @batchLoop_indices launch center (batch * 9 + 4) (fieldFromSmall 1) 0 launch.batchTable
    (by omega) (by omega)
  rw [batchEvaluations, List.map_append, inRange_indices, loop, length, ← List.filter_append]
  rfl

/-- A batch is exact around a finite centre, and only there. -/
theorem batchEvaluations_exact_iff {P : CurvePoint} (arguments : Arguments launch P) {center : AffinePoint}
    {batch : Nat} (inside : batch < launch.batchCount)
    (centre : CentreOf (P + (batch * 9 + 4) • generator) center) :
    (∀ evaluation ∈ batchEvaluations launch center (batch * 9 + 4), Exact P evaluation) ↔
      P + (batch * 9 + 4) • generator ≠ 0 := by
  obtain ⟨length, table⟩ := arguments.tableFrom
  have small := arguments.centre_lt inside
  constructor
  · intro exact_ infinite
    have here : center = .atInfinity := centre.zeroed (centre.stands.infinity_iff.mpr infinite)
    obtain ⟨evaluation, member, place, wrong⟩ := @batchLoop_infinity launch (batch * 9 + 4) _ _ table (by omega)
      (by omega) (by omega) (by omega) (by rw [arguments.lt_batchCount] at inside; omega) _ _ holds_one one_ne_zero
    rw [← here] at member
    have right := exact_ evaluation (List.mem_append_right _ member)
    apply wrong
    rw [Exact, place, length] at right
    rw [length]
    have below : P + (batch * 9 + 4 - (0 + 4)) • generator = -((0 + 4) • generator) := by
      rw [eq_neg_iff_add_eq_zero, add_assoc, ← add_nsmul, Nat.sub_add_cancel (by omega)]
      exact infinite
    rw [← below]
    exact right
  · intro finite evaluation member
    rcases List.mem_append.mp member with first | others
    · rw [mem_inRange first]
      exact centre.stands
    · exact batchLoop_exact centre.stands finite table (by omega) (by omega) holds_one one_ne_zero evaluation others

/-- The number of batches of a lane from a batch on. -/
def rounds (launch : BatchedLaunch) (batch : Nat) : Nat :=
  (launch.batchCount - batch + launch.laneCount - 1) / launch.laneCount

theorem lt_rounds {batch round : Nat} (lanes : 0 < launch.laneCount) :
    round < rounds launch batch ↔ batch + round * launch.laneCount < launch.batchCount := by
  rw [rounds, ← Nat.succ_le_iff, Nat.le_div_iff_mul_le lanes, Nat.succ_mul]
  omega

theorem rounds_pos {batch : Nat} (lanes : 0 < launch.laneCount) :
    0 < rounds launch batch ↔ batch < launch.batchCount := by
  rw [lt_rounds lanes, Nat.zero_mul, Nat.add_zero]

/-- The batches of a lane from a batch on. -/
def laneBatches (launch : BatchedLaunch) (batch : Nat) : List Nat :=
  List.range' batch (rounds launch batch) launch.laneCount

theorem mem_laneBatches {lane batch : Nat} (lanes : 0 < launch.laneCount) (inside : lane < launch.laneCount) :
    batch ∈ laneBatches launch lane ↔ batch % launch.laneCount = lane ∧ batch < launch.batchCount := by
  rw [laneBatches, List.mem_range']
  constructor
  · rintro ⟨round, below, rfl⟩
    rw [lt_rounds lanes] at below
    rw [Nat.add_mul_mod_self_left, Nat.mod_eq_of_lt inside, Nat.mul_comm]
    exact ⟨rfl, below⟩
  · rintro ⟨rfl, below⟩
    refine ⟨batch / launch.laneCount, ?_, (Nat.mod_add_div _ _).symm⟩
    rwa [lt_rounds lanes, Nat.mul_comm, Nat.mod_add_div]

theorem rounds_next {batch count : Nat} (lanes : 0 < launch.laneCount) (more : count + 1 = rounds launch batch) :
    count = rounds launch (batch + launch.laneCount) := by
  apply eq_of_forall_lt_iff
  intro round
  have here := @lt_rounds launch batch (round + 1) lanes
  rw [← more, Nat.add_lt_add_iff_right, Nat.add_one_mul] at here
  rw [here, lt_rounds lanes, Nat.add_assoc, Nat.add_comm launch.laneCount]

/-- The loop of a lane goes over its batches, each around its centre. -/
theorem laneLoop_batches {P : CurvePoint} (arguments : Arguments launch P) {count fuel batch : Nat}
    {center : AffinePoint} (reached : count = rounds launch batch) (enough : count ≤ fuel)
    (centre : batch < launch.batchCount → CentreOf (P + (batch * 9 + 4) • generator) center) :
    ∃ centers : Nat → AffinePoint,
      (∀ visited ∈ laneBatches launch batch, CentreOf (P + (visited * 9 + 4) • generator) (centers visited)) ∧
      laneLoop launch fuel batch (batch * 9 + 4) center = (laneBatches launch batch).flatMap fun visited =>
        batchEvaluations launch (centers visited) (visited * 9 + 4) := by
  have lanes := arguments.lanes
  induction count generalizing fuel batch center with
  | zero =>
    have outside : ¬ batch < launch.batchCount := by
      rw [← rounds_pos lanes, ← reached]
      exact Nat.lt_irrefl 0
    have nothing : laneBatches launch batch = [] := by rw [laneBatches, ← reached, List.range'_zero]
    rw [nothing]
    refine ⟨fun _ => center, by simp, ?_⟩
    cases fuel with
    | zero => rfl
    | succ fuel => rw [laneLoop, if_neg outside, List.flatMap_nil]
  | succ count hypothesis =>
    have inside : batch < launch.batchCount := by
      rw [← rounds_pos lanes, ← reached]
      exact Nat.succ_pos count
    have small := arguments.centre_lt inside
    have rest := rounds_next lanes reached
    have nextBatch : wrap (batch + launch.laneCount) = batch + launch.laneCount := Nat.mod_eq_of_lt (by omega)
    have nextCenter : wrap (batch * 9 + 4 + launch.laneCount * batchSpan) = (batch + launch.laneCount) * 9 + 4 := by
      rw [wrap, batchSpan, batchRadius, Nat.mod_eq_of_lt (by omega)]
      omega
    have nextCentre : batch + launch.laneCount < launch.batchCount →
        CentreOf (P + ((batch + launch.laneCount) * 9 + 4) • generator)
          (if batch + launch.laneCount < launch.batchCount then pointAdd center launch.laneStridePoint else center) := by
      intro next
      have moved := (centre inside).add arguments.stride (small_nsmul_generator (by omega) (by omega))
      have place : batch * 9 + 4 + launch.laneCount * 9 = (batch + launch.laneCount) * 9 + 4 := by omega
      rw [add_assoc, ← add_nsmul, place] at moved
      rw [if_pos next]
      exact moved
    obtain ⟨fuel, rfl⟩ : ∃ less, fuel = less + 1 := ⟨fuel - 1, by omega⟩
    obtain ⟨centers, sound, loop⟩ := @hypothesis fuel _ _ rest (by omega) nextCentre
    have split : laneBatches launch batch = batch :: laneBatches launch (batch + launch.laneCount) := by
      rw [laneBatches, ← reached, List.range'_succ, laneBatches, ← rest]
    have later : ∀ visited ∈ laneBatches launch (batch + launch.laneCount), visited ≠ batch := by
      intro visited member
      obtain ⟨round, -, rfl⟩ := List.mem_range'.mp member
      omega
    refine ⟨Function.update centers batch center, ?_, ?_⟩
    · rw [split]
      intro visited member
      rcases List.mem_cons.mp member with rfl | member
      · rw [Function.update_self]
        exact centre inside
      · rw [Function.update_of_ne (later visited member)]
        exact sound visited member
    · have same : ((laneBatches launch (batch + launch.laneCount)).flatMap fun visited =>
          batchEvaluations launch (Function.update centers batch center visited) (visited * 9 + 4)) =
          (laneBatches launch (batch + launch.laneCount)).flatMap fun visited =>
            batchEvaluations launch (centers visited) (visited * 9 + 4) := by
        apply List.flatMap_congr
        intro visited member
        rw [Function.update_of_ne (later visited member)]
      rw [laneLoop, if_pos inside, split, List.flatMap_cons, Function.update_self, same, ← loop]
      simp only [nextBatch, nextCenter]

/-- A lane goes over its batches. -/
theorem batchedSearchLane_batches {P : CurvePoint} (arguments : Arguments launch P) (lane : Nat) :
    ∃ centers : Nat → AffinePoint,
      (∀ visited ∈ laneBatches launch lane, CentreOf (P + (visited * 9 + 4) • generator) (centers visited)) ∧
      batchedSearchLane launch lane = (laneBatches launch lane).flatMap fun visited =>
        batchEvaluations launch (centers visited) (visited * 9 + 4) := by
  have lanes := arguments.lanes
  rw [batchedSearchLane]
  by_cases inside : lane < launch.batchCount
  · rw [if_neg (Nat.not_le.mpr inside)]
    have small := arguments.centre_lt inside
    have centerIndex : wrap (lane * batchSpan + batchRadius) = lane * 9 + 4 := Nat.mod_eq_of_lt (by
      simp only [batchSpan, batchRadius]
      omega)
    have relative := scalarMultiplyU64_represents (UInt64.ofNat (lane * 9 + 4))
    rw [UInt64.toNat_ofNat_of_lt' (show lane * 9 + 4 < 2 ^ 64 by omega)] at relative
    have start : CentreOf P launch.rangeStartPoint := by
      refine ⟨arguments.start, fun infinite => absurd (arguments.start.infinity_iff.mp infinite) arguments.finite⟩
    have centre := start.add relative (small_nsmul_generator (by omega) (by omega))
    have enough : rounds launch lane ≤ launch.batchCount := by
      by_contra more
      have outside := (lt_rounds lanes).mp (Nat.lt_of_not_le more)
      have grown := Nat.le_mul_of_pos_right launch.batchCount lanes
      omega
    simp only [centerIndex]
    exact laneLoop_batches arguments rfl enough (fun _ => centre)
  · rw [if_pos (Nat.le_of_not_lt inside)]
    have none : rounds launch lane = 0 := Nat.eq_zero_of_not_pos (mt (rounds_pos lanes).mp inside)
    refine ⟨fun _ => default, ?_⟩
    rw [laneBatches, none, List.range'_zero]
    exact ⟨by simp, rfl⟩

theorem mem_kernel {P : CurvePoint} (arguments : Arguments launch P) {centers : Nat → Nat → AffinePoint}
    (batches : ∀ lane, batchedSearchLane launch lane = (laneBatches launch lane).flatMap fun visited =>
      batchEvaluations launch (centers lane visited) (visited * 9 + 4)) (evaluation : Evaluation Field) :
    evaluation ∈ batchedSearchKernel launch ↔ ∃ batch < launch.batchCount, evaluation ∈
      batchEvaluations launch (centers (batch % launch.laneCount) batch) (batch * 9 + 4) := by
  have lanes := arguments.lanes
  simp only [batchedSearchKernel, batches, List.mem_flatMap, List.mem_range]
  constructor
  · rintro ⟨lane, inside, batch, member, here⟩
    obtain ⟨rfl, below⟩ := (mem_laneBatches lanes inside).mp member
    exact ⟨batch, below, here⟩
  · rintro ⟨batch, below, here⟩
    have inside := Nat.mod_lt batch lanes
    exact ⟨_, inside, batch, (mem_laneBatches lanes inside).mpr ⟨rfl, below⟩, here⟩

/-- Every index of the range is evaluated once, whatever the centres are. -/
theorem batchedSearchKernel_indices {P : CurvePoint} (arguments : Arguments launch P) :
    ((batchedSearchKernel launch).map (·.index)).Perm (List.range launch.rangeCount) := by
  have lanes := arguments.lanes
  choose centers sound batches using batchedSearchLane_batches arguments
  have indices : (batchedSearchKernel launch).map (·.index) = (List.range launch.laneCount).flatMap fun lane =>
      (laneBatches launch lane).flatMap fun batch => (batchIndices batch).filter (· < launch.rangeCount) := by
    rw [batchedSearchKernel, List.map_flatMap]
    apply List.flatMap_congr
    intro lane member
    rw [batches, List.map_flatMap]
    apply List.flatMap_congr
    intro batch here
    exact batchEvaluations_indices arguments _ ((mem_laneBatches lanes (List.mem_range.mp member)).mp here).2
  have belongs (batch index : Nat) : index ∈ (batchIndices batch).filter (· < launch.rangeCount) ↔
      index / 9 = batch ∧ index < launch.rangeCount := by
    rw [List.mem_filter, mem_batchIndices, decide_eq_true_eq]
  rw [indices]
  apply perm_range
  · apply nodup_flatMap_of_key (fun index => index / 9 % launch.laneCount) List.nodup_range
    · intro lane member
      apply nodup_flatMap_of_key (fun index => index / 9) (List.nodup_range' launch.laneCount lanes)
      · intro batch _
        exact (nodup_batchIndices batch).filter _
      · intro batch _ index inside
        exact ((belongs batch index).mp inside).1
    · intro lane member index inside
      obtain ⟨batch, here, inside⟩ := List.mem_flatMap.mp inside
      rw [((belongs batch index).mp inside).1]
      exact ((mem_laneBatches lanes (List.mem_range.mp member)).mp here).1
  · intro index
    simp only [List.mem_flatMap, List.mem_range]
    constructor
    · rintro ⟨lane, inside, batch, here, member⟩
      exact ((belongs batch index).mp member).2
    · intro inRange
      have inside := Nat.mod_lt (index / 9) lanes
      have batch : index / 9 < launch.batchCount := by
        rw [arguments.lt_batchCount]
        exact (Nat.div_mul_le_self index 9).trans_lt inRange
      exact ⟨_, inside, index / 9, (mem_laneBatches lanes inside).mpr ⟨rfl, batch⟩, (belongs _ _).mpr ⟨rfl, inRange⟩⟩

/-- Its candidates are exact if and only if no batch has its centre at infinity. -/
theorem batchedSearchKernel_exact_iff {P : CurvePoint} (arguments : Arguments launch P) :
    (∀ evaluation ∈ batchedSearchKernel launch, Exact P evaluation) ↔
      ∀ batch, batch * 9 < launch.rangeCount → P + (batch * 9 + 4) • generator ≠ 0 := by
  have lanes := arguments.lanes
  choose centers sound batches using batchedSearchLane_batches arguments
  have centre {batch : Nat} (inside : batch < launch.batchCount) :
      CentreOf (P + (batch * 9 + 4) • generator) (centers (batch % launch.laneCount) batch) := by
    have lane := Nat.mod_lt batch lanes
    exact sound _ batch ((mem_laneBatches lanes lane).mpr ⟨rfl, inside⟩)
  simp only [mem_kernel arguments batches]
  constructor
  · intro exact_ batch inRange
    have inside := (arguments.lt_batchCount batch).mpr inRange
    exact (batchEvaluations_exact_iff arguments inside (centre inside)).mp
      fun evaluation member => exact_ evaluation ⟨batch, inside, member⟩
  · rintro finite evaluation ⟨batch, inside, member⟩
    have apart := finite batch ((arguments.lt_batchCount batch).mp inside)
    exact (batchEvaluations_exact_iff arguments inside (centre inside)).mpr apart evaluation member

/-- A launch evaluates every index of the range once, with its candidate, and reports
what the reference kernel reports. -/
structure BatchedExact (launch : BatchedLaunch) (P : CurvePoint) (pattern : DevicePattern) (grid : Nat) : Prop where
  indices : ((batchedSearchKernel launch).map (·.index)).Perm (List.range launch.rangeCount)
  candidates : ∀ evaluation ∈ batchedSearchKernel launch,
    Represents evaluation.candidate (P + evaluation.index • generator)
  winner : batchedWinner launch pattern noWinner =
    functionalSearchKernel launch.rangeStartPoint pattern launch.rangeCount grid noWinner

theorem batched_of_finite {P : CurvePoint} (arguments : Arguments launch P) {pattern : DevicePattern}
    (built : BuiltPattern pattern) {grid : Nat} (wide : launch.rangeCount ≤ grid)
    (finite : ∀ batch, batch * 9 < launch.rangeCount → P + (batch * 9 + 4) • generator ≠ 0) :
    BatchedExact launch P pattern grid := by
  have indices := batchedSearchKernel_indices arguments
  have candidates := (batchedSearchKernel_exact_iff arguments).mpr finite
  have unsigned : launch.rangeCount ≤ 2 ^ 64 := (Nat.le_add_right _ _).trans arguments.unsigned
  exact ⟨indices, candidates,
    winner_eq_functional publicKey_unique built arguments.start wide unsigned indices candidates⟩

/-- The batched kernel is exact if and only if no batch of the range is centred on
the point at infinity. -/
theorem batched_search_exact_iff {P : CurvePoint} (arguments : Arguments launch P) {pattern : DevicePattern}
    (built : BuiltPattern pattern) {grid : Nat} (wide : launch.rangeCount ≤ grid) :
    BatchedExact launch P pattern grid ↔
      ∀ batch, batch * 9 < launch.rangeCount → P + (batch * 9 + 4) • generator ≠ 0 := by
  constructor
  · intro exact_
    exact (batchedSearchKernel_exact_iff arguments).mp exact_.candidates
  · exact batched_of_finite arguments built wide

/-- One batch of one lane, the start as given. -/
def oneBatch (start : AffinePoint) : BatchedLaunch :=
  ⟨start, scalarMultiplyU64 9, (List.range 4).map fun index => scalarMultiplyU64 (UInt64.ofNat (index + 1)), 1, 1⟩

theorem oneBatch_arguments {start : AffinePoint} {P : CurvePoint} (stands : Represents start P) (finite : P ≠ 0) :
    Arguments (oneBatch start) P := by
  have nine := scalarMultiplyU64_represents 9
  have number : (9 : UInt64).toNat = 1 * 9 := rfl
  rw [number] at nine
  refine ⟨stands, finite, by simpa only [oneBatch] using nine, ?_, Nat.one_pos, by simp [oneBatch]⟩
  rw [oneBatch, List.forall₂_map_left_iff, List.forall₂_map_right_iff, List.forall₂_same]
  intro index member
  have multiple := scalarMultiplyU64_represents (UInt64.ofNat (index + 1))
  rw [List.mem_range] at member
  rwa [UInt64.toNat_ofNat_of_lt' (show index + 1 < 2 ^ 64 by omega)] at multiple

/-- One candidate from the generator. -/
theorem batched_search_exact_iff_generator : ∃ pattern, BuiltPattern pattern ∧
    (BatchedExact (oneBatch generatorPoint) generator pattern 1 ↔
      ∀ batch, batch * 9 < 1 → generator + (batch * 9 + 4) • generator ≠ 0) := by
  obtain ⟨pattern, built⟩ := builtPattern_two
  have finite : generator ≠ 0 := by
    rw [← one_nsmul generator]
    exact small_nsmul_generator (by omega) (by omega)
  exact ⟨pattern, built, batched_search_exact_iff (oneBatch_arguments generatorPoint_represents finite) built le_rfl⟩

/-- The start `-4G`, whose first batch is centred on infinity. -/
theorem batched_search_misses : ∃ pattern, BuiltPattern pattern ∧
    Arguments (oneBatch (scalarMultiplyU64 4).opposite) (-(4 • generator)) ∧
    ¬ BatchedExact (oneBatch (scalarMultiplyU64 4).opposite) (-(4 • generator)) pattern 1 := by
  obtain ⟨pattern, built⟩ := builtPattern_two
  have four := scalarMultiplyU64_represents 4
  have number : (4 : UInt64).toNat = 4 := rfl
  rw [number] at four
  have finite : 4 • generator ≠ 0 := small_nsmul_generator (by omega) (by omega)
  have flag : (scalarMultiplyU64 4).infinity = false :=
    Bool.eq_false_iff.mpr (fun infinite => finite (four.infinity_iff.mp infinite))
  have arguments := oneBatch_arguments (represents_opposite four flag) (neg_ne_zero.mpr finite)
  refine ⟨pattern, built, arguments, ?_⟩
  intro exact_
  have apart := (batchedSearchKernel_exact_iff arguments).mp exact_.candidates 0 Nat.one_pos
  rw [Nat.zero_mul, Nat.zero_add] at apart
  exact apart (neg_add_cancel _)

end

end TronForge.Native.CudaSecp
