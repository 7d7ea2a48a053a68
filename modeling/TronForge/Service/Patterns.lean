import Mathlib.Data.List.Indexes
import TronForge.Native.PrefixVariants

/-! The server's matcher: the allowed characters of each position, and that it
agrees with the two native matchers. -/

namespace TronForge.Service

open Native (Text charAt base58Alphabet)

/-- `swapcase`; the characters of a pattern are ASCII. -/
def swapcase (character : Char) : Char :=
  if character.isUpper then character.toLower else character.toUpper

/-- `character_options`. -/
def characterOptions (character : Char) (exact : Bool) : Text :=
  if exact || !character.isAlpha then [character]
  else
    let swapped := swapcase character
    if swapped ∈ base58Alphabet ∧ swapped ∉ [character] then [character, swapped] else [character]

/-- A compiled pattern: the allowed characters of each position. -/
structure MatchSpec where
  version : Nat
  prefixOptions : List Text
  suffixOptions : List Text
  deriving DecidableEq, Repr

/-- `compile_match_spec`; the prefix has its `T`. -/
def compileMatchSpec (requested suffix : Text) : MatchSpec :=
  ⟨1, requested.mapIdx fun index character => characterOptions character (index ≤ 1),
    suffix.map fun character => characterOptions character false⟩

/-- `address_matches_spec`. -/
def addressMatchesSpec (address : Text) (spec : MatchSpec) : Bool :=
  if address.length < spec.prefixOptions.length + spec.suffixOptions.length then false
  else
    let suffixStart := address.length - spec.suffixOptions.length
    ((List.range spec.prefixOptions.length).all fun index =>
      (spec.prefixOptions.getD index []).contains (charAt address index)) &&
    (List.range spec.suffixOptions.length).all fun index =>
      (spec.suffixOptions.getD index []).contains (charAt address (suffixStart + index))

theorem characterOptions_eq {character : Char} (known : character ∈ base58Alphabet) :
    characterOptions character false =
      if Native.twoCased character then [character, Native.flipCase character] else [character] := by
  have all : ∀ character ∈ base58Alphabet, characterOptions character false =
      if Native.twoCased character then [character, Native.flipCase character] else [character] := by decide
  exact all character known

/-- The options of a Base58 character are what it loosely equals. -/
theorem contains_characterOptions {actual requested : Char} (known : actual ∈ base58Alphabet)
    (knownRequested : requested ∈ base58Alphabet) :
    (characterOptions requested false).contains actual = Native.looseEqual actual requested := by
  rw [characterOptions_eq knownRequested, Bool.eq_iff_iff, List.contains_iff_mem]
  constructor
  · intro member
    split at member
    · rename_i twoCases
      rcases List.mem_cons.mp member with rfl | flipped
      · exact Native.looseEqual_self actual
      · rw [List.mem_singleton.mp flipped]
        exact (Native.flipCase_loose knownRequested twoCases).2
    · rw [List.mem_singleton.mp member]
      exact Native.looseEqual_self requested
  · intro loose
    rcases Native.looseEqual_cases known knownRequested loose with rfl | ⟨twoCases, rfl⟩
    · split
      · exact List.mem_cons_self
      · exact List.mem_cons_self
    · rw [if_pos twoCases]
      exact List.mem_cons_of_mem _ List.mem_cons_self

theorem contains_exactOptions (actual requested : Char) :
    (characterOptions requested true).contains actual = (actual == requested) := by
  simp only [characterOptions, Bool.true_or, if_true, List.contains_cons, List.contains_nil, Bool.or_false]

theorem suffixOptions_getD {suffix : Text} {index : Nat} (inside : index < suffix.length) :
    (suffix.map fun character => characterOptions character false).getD index [] =
      characterOptions (charAt suffix index) false := by
  simp [charAt, inside]

theorem prefixOptions_getD {requested : Text} {index : Nat} (inside : index < requested.length) :
    (requested.mapIdx fun index character => characterOptions character (index ≤ 1)).getD index [] =
      characterOptions (charAt requested index) (index ≤ 1) := by
  simp [charAt, inside]

/-- The server's matcher agrees with the native one on addresses that start with `T`. -/
theorem addressMatchesSpec_eq {afterT suffix address : Text} (accepted : Native.Accepted afterT suffix)
    (length : address.length = 34) (first : charAt address 0 = 'T')
    (characters : ∀ character ∈ address, character ∈ base58Alphabet) :
    addressMatchesSpec address (compileMatchSpec ('T' :: afterT) suffix) =
      Native.matchesPattern address afterT suffix := by
  have afterTLength := accepted.afterTLength
  have suffixLength := accepted.suffixLength
  have short : ¬ 34 < (afterT.length + 1) + suffix.length := by omega
  have known {index : Nat} (inside : index < 34) : charAt address index ∈ base58Alphabet :=
    characters _ (Native.charAt_mem (by rw [length]; exact inside))
  simp only [addressMatchesSpec, compileMatchSpec, Native.matchesPattern, List.length_mapIdx, List.length_map,
    List.length_cons, length, if_neg short, first, decide_true, Bool.true_and, BEq.rfl]
  congr 1
  · rw [List.range_succ_eq_map, List.all_cons, List.all_map, prefixOptions_getD (by simp), first]
    have fixed : (characterOptions (charAt ('T' :: afterT) 0) (decide (0 ≤ 1))).contains 'T' = true := rfl
    rw [fixed, Bool.true_and]
    apply Native.all_range_congr
    intro index inside
    have next : charAt ('T' :: afterT) (index + 1) = charAt afterT index := rfl
    rw [Function.comp_apply, prefixOptions_getD (by simp [inside]), Nat.succ_eq_add_one, next]
    cases index with
    | zero => exact contains_exactOptions _ _
    | succ index =>
      have loose : decide (index + 1 + 1 ≤ 1) = false := rfl
      rw [loose, if_neg (Nat.succ_ne_zero index)]
      exact contains_characterOptions (known (by omega))
        (accepted.characters _ (List.mem_append_left _ (Native.charAt_mem inside)))
  · apply Native.all_range_congr
    intro index inside
    rw [suffixOptions_getD inside]
    exact contains_characterOptions (known (by omega))
      (accepted.characters _ (List.mem_append_right _ (Native.charAt_mem inside)))

/-- The three matchers agree. -/
theorem matchers_agree {pattern afterT suffix : Text}
    (valid : Native.validatePattern pattern afterT suffix = .ok ()) {address : Text} (length : address.length = 34)
    (first : charAt address 0 = 'T') (characters : ∀ character ∈ address, character ∈ base58Alphabet)
    (intervals : List Native.PrefixInterval) :
    Native.devicePatternMatches address ⟨afterT, suffix, intervals⟩ = Native.matchesPattern address afterT suffix ∧
    addressMatchesSpec address (compileMatchSpec ('T' :: afterT) suffix) =
      Native.matchesPattern address afterT suffix := by
  have accepted := Native.validatePattern_ok valid
  constructor
  · exact Native.devicePatternMatches_eq accepted length first characters intervals
  · exact addressMatchesSpec_eq accepted length first characters

theorem matchers_agree_reference :
    Native.devicePatternMatches "TDvSsdrNM5eeXNL3czpa6AxLDHZA9nwe9K".toList ⟨"DV".toList, "9k".toList, []⟩ =
      Native.matchesPattern "TDvSsdrNM5eeXNL3czpa6AxLDHZA9nwe9K".toList "DV".toList "9k".toList ∧
    addressMatchesSpec "TDvSsdrNM5eeXNL3czpa6AxLDHZA9nwe9K".toList
        (compileMatchSpec ('T' :: "DV".toList) "9k".toList) =
      Native.matchesPattern "TDvSsdrNM5eeXNL3czpa6AxLDHZA9nwe9K".toList "DV".toList "9k".toList := by
  have accepted : Native.validatePattern "2x2".toList "DV".toList "9k".toList = .ok () := by decide
  exact matchers_agree accepted (by decide) (by decide) (by decide) []

end TronForge.Service
