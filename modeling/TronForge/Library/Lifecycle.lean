import Mathlib.Data.List.Basic

/-! Streams of marks that say what starts and what ends, and when nothing in them
starts that has ended before. -/

namespace TronForge.Library.Lifecycle

variable {Key : Type}

inductive Mark (Key : Type) where
  | starts (key : Key)
  | ends (key : Key)
  deriving DecidableEq, Repr

def Mark.key : Mark Key → Key
  | .starts key | .ends key => key

/-- Nothing starts after it has ended, in the stream or before it. -/
def Ordered (ended : Key → Prop) : List (Mark Key) → Prop
  | [] => True
  | .starts key :: rest => ¬ ended key ∧ Ordered ended rest
  | .ends key :: rest => Ordered (fun other => ended other ∨ other = key) rest

variable {ended fewer : Key → Prop} {stream before added after : List (Mark Key)} {key : Key}

theorem ordered_starts : Ordered ended (.starts key :: stream) ↔ ¬ ended key ∧ Ordered ended stream := Iff.rfl

theorem ordered_ends : Ordered ended (.ends key :: stream) ↔
    Ordered (fun other => ended other ∨ other = key) stream := Iff.rfl

/-- What starts in the stream decides alone. -/
theorem Ordered.weaken (ordered : Ordered ended stream)
    (implies : ∀ key, .starts key ∈ stream → fewer key → ended key) : Ordered fewer stream := by
  induction stream generalizing ended fewer with
  | nil => trivial
  | cons mark rest hypothesis =>
    cases mark with
    | starts key =>
      obtain ⟨fresh, ordered⟩ := ordered
      constructor
      · intro past
        exact fresh (implies key List.mem_cons_self past)
      · exact hypothesis ordered fun other member => implies other (List.mem_cons_of_mem _ member)
    | ends key =>
      apply hypothesis ordered
      intro other member past
      rcases past with past | same
      · exact .inl (implies other (List.mem_cons_of_mem _ member) past)
      · exact .inr same

theorem ordered_append : Ordered ended (before ++ after) ↔
    Ordered ended before ∧ Ordered (fun key => ended key ∨ .ends key ∈ before) after := by
  induction before generalizing ended with
  | nil => simp [Ordered]
  | cons mark rest hypothesis =>
    cases mark with
    | starts key =>
      rw [List.cons_append, ordered_starts, ordered_starts, hypothesis, and_assoc]
      simp
    | ends key =>
      have same : (fun other => (ended other ∨ other = key) ∨ Mark.ends other ∈ rest) =
          fun other => ended other ∨ Mark.ends other ∈ Mark.ends key :: rest := by
        funext other
        simp [or_assoc]
      rw [List.cons_append, ordered_ends, ordered_ends, hypothesis, same]

/-- Where the stream has no start, there is no condition. -/
theorem ordered_of_no_starts (none : ∀ key, .starts key ∉ stream) : Ordered ended stream := by
  induction stream generalizing ended with
  | nil => trivial
  | cons mark rest hypothesis =>
    have further : ∀ key, .starts key ∉ rest := fun key member => none key (List.mem_cons_of_mem _ member)
    cases mark with
    | starts key => exact absurd List.mem_cons_self (none key)
    | ends key => exact hypothesis further

theorem Ordered.sublist (ordered : Ordered ended stream) (kept : added.Sublist stream) : Ordered ended added := by
  induction kept generalizing ended with
  | slnil => trivial
  | @cons added rest mark kept hypothesis =>
    cases mark with
    | starts key => exact hypothesis ordered.2
    | ends key =>
      have weaker : Ordered ended rest := Ordered.weaken ordered fun _ _ past => .inl past
      exact hypothesis weaker
  | @cons_cons added rest mark kept hypothesis =>
    cases mark with
    | starts key => exact ⟨ordered.1, hypothesis ordered.2⟩
    | ends key => exact hypothesis ordered

/-- More marks in the middle, which end nothing that starts behind them. -/
theorem Ordered.insert (ordered : Ordered ended (before ++ after)) (own : Ordered ended (before ++ added))
    (apart : ∀ key, .ends key ∈ added → .starts key ∉ after) : Ordered ended (before ++ added ++ after) := by
  rw [ordered_append] at ordered ⊢
  refine ⟨own, ordered.2.weaken ?_⟩
  intro key starts past
  rcases past with past | inside
  · exact .inl past
  · rcases List.mem_append.mp inside with old | new
    · exact .inr old
    · exact absurd starts (apart key new)

end TronForge.Library.Lifecycle
