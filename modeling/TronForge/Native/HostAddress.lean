import Mathlib.Data.List.GetD
import TronForge.Library.Sha256
import TronForge.Native.HostKeccak

/-! The rolling schedule of the device is the message schedule of SHA-256, and the
address of a public key on the device is the host's. -/

namespace TronForge.Native

open Library

/-- Before a turn the sixteen words are the last ones of the message schedule. -/
structure Rolling (words : Nat → UInt32) (turns : Nat) (schedule : List UInt32) : Prop where
  length : schedule.length = 16
  recent : ∀ t, t < max 16 turns → max 16 turns ≤ t + 16 → word schedule (t % 16) = words t

/-- The working variables as the standard names them. -/
def Sha256State.chaining (state : Sha256State) : Sha256.Chaining :=
  ⟨state.a, state.b, state.c, state.d, state.e, state.f, state.g, state.h⟩

section
variable {block : Nat → UInt32} {schedule : List UInt32} {index : Nat}

theorem nextSchedule_rolling (rolling : Rolling (Sha256.schedule block) index schedule) :
    Rolling (Sha256.schedule block) (index + 1) (nextSchedule schedule index) ∧
      word (nextSchedule schedule index) (index % 16) = Sha256.schedule block index := by
  have length := rolling.length
  have recent := rolling.recent
  by_cases later : 16 ≤ index
  · rw [max_eq_right later] at recent
    have inside : index % 16 < schedule.length := by
      rw [length]
      exact Nat.mod_lt _ (by omega)
    have fifteen := recent (index - 15) (by omega) (by omega)
    have two := recent (index - 2) (by omega) (by omega)
    have seven := recent (index - 7) (by omega) (by omega)
    have sixteen := recent (index - 16) (by omega) (by omega)
    have place : (index - 16) % 16 = index % 16 := by omega
    rw [place] at sixteen
    have here : word (nextSchedule schedule index) (index % 16) = Sha256.schedule block index := by
      rw [Sha256.schedule_recurrence block later, nextSchedule, if_pos later, fifteen, two, seven, sixteen, word,
        List.getD, List.getElem?_set_self inside]
      have order (sixteen fifteen seven two : UInt32) :
          sixteen + (fifteen + seven + two) = two + seven + fifteen + sixteen := by ac_rfl
      exact order _ (Sha256.smallSigmaZero _) _ (Sha256.smallSigmaOne _)
    refine ⟨⟨?_, ?_⟩, here⟩
    · rw [nextSchedule, if_pos later, List.length_set, length]
    · intro t below above
      rw [max_eq_right (by omega)] at below above
      by_cases now : t = index
      · rw [now]
        exact here
      · have apart : index % 16 ≠ t % 16 := by omega
        rw [nextSchedule, if_pos later, word, List.getD, List.getElem?_set_ne apart]
        exact recent t (by omega) (by omega)
  · have early : nextSchedule schedule index = schedule := if_neg later
    rw [max_eq_left (by omega)] at recent
    rw [early]
    refine ⟨⟨length, ?_⟩, recent index (by omega) (by omega)⟩
    rw [max_eq_left (by omega)]
    exact recent

/-- A turn of the device is a turn of the standard on the words of the schedule. -/
theorem sha256Turn_rolling {state : Sha256State} (rolling : Rolling (Sha256.schedule block) index schedule) :
    Rolling (Sha256.schedule block) (index + 1) (sha256Turn (schedule, state) index).1 ∧
      (sha256Turn (schedule, state) index).2.chaining =
        Sha256.turn (Sha256.schedule block) state.chaining index := by
  obtain ⟨next, here⟩ := nextSchedule_rolling rolling
  refine ⟨next, ?_⟩
  simp only [sha256Turn, here, Sha256.turn, Sha256State.chaining]
  rfl

theorem foldl_sha256Turn {state : Sha256State} (rolling : Rolling (Sha256.schedule block) 0 schedule) (turns : Nat) :
    Rolling (Sha256.schedule block) turns ((List.range turns).foldl sha256Turn (schedule, state)).1 ∧
      ((List.range turns).foldl sha256Turn (schedule, state)).2.chaining =
        (List.range turns).foldl (Sha256.turn (Sha256.schedule block)) state.chaining := by
  induction turns with
  | zero => exact ⟨rolling, rfl⟩
  | succ turns hypothesis =>
    obtain ⟨rolling, same⟩ := hypothesis
    obtain ⟨next, turned⟩ := sha256Turn_rolling rolling
    rw [List.range_succ, List.foldl_append, List.foldl_append, List.foldl_cons, List.foldl_nil, List.foldl_cons,
      List.foldl_nil, ← same]
    exact ⟨next, turned⟩

end

/-- Four bytes as a word, most significant first. -/
def wordOf (bytes : Nat → UInt8) (t : Nat) : UInt32 :=
  (bytes (4 * t)).toUInt32 <<< 24 ||| (bytes (4 * t + 1)).toUInt32 <<< 16 |||
    (bytes (4 * t + 2)).toUInt32 <<< 8 ||| (bytes (4 * t + 3)).toUInt32

/-- The bytes before an index, zero from there on. -/
def upTo (bytes : Nat → UInt8) (count index : Nat) : UInt8 := if index < count then bytes index else 0

theorem wordOf_upTo_here (bytes : Nat → UInt8) (count : Nat) :
    wordOf (upTo bytes count) (count / 4) ||| (bytes count).toUInt32 <<< UInt32.ofNat (24 - count % 4 * 8) =
      wordOf (upTo bytes (count + 1)) (count / 4) := by
  obtain ⟨t, r, small, rfl⟩ : ∃ t r, r < 4 ∧ count = 4 * t + r := ⟨count / 4, count % 4, by omega, by omega⟩
  have quotient : (4 * t + r) / 4 = t := by omega
  have remainder : (4 * t + r) % 4 = r := by omega
  rw [quotient, remainder]
  match r, small with
  | 0, _ => simp [wordOf, upTo]
  | 1, _ => simp [wordOf, upTo]
  | 2, _ => simp [wordOf, upTo]
  | 3, _ => simp [wordOf, upTo]

theorem wordOf_congr {left right : Nat → UInt8} {t : Nat}
    (same : ∀ offset < 4, left (4 * t + offset) = right (4 * t + offset)) :
    wordOf left t = wordOf right t := by
  have zero := same 0 (by omega)
  rw [Nat.add_zero] at zero
  rw [wordOf, wordOf, zero, same 1 (by omega), same 2 (by omega), same 3 (by omega)]

theorem wordOf_upTo_else (bytes : Nat → UInt8) {count t : Nat} (apart : count / 4 ≠ t) :
    wordOf (upTo bytes count) t = wordOf (upTo bytes (count + 1)) t := by
  apply wordOf_congr
  intro offset small
  have same : (4 * t + offset < count) = (4 * t + offset < count + 1) := by
    rw [eq_iff_iff]
    omega
  simp only [upTo, same]

/-- The words with the first bytes written in. -/
def filled (bytes : Nat → UInt8) (count : Nat) : List UInt32 :=
  (List.range count).foldl
    (fun schedule index => schedule.set (index / 4)
      (word schedule (index / 4) ||| (bytes index).toUInt32 <<< UInt32.ofNat (24 - index % 4 * 8)))
    (List.replicate 16 0)

theorem filled_word (bytes : Nat → UInt8) {count : Nat} (fits : count ≤ 64) :
    (filled bytes count).length = 16 ∧ ∀ t < 16, word (filled bytes count) t = wordOf (upTo bytes count) t := by
  induction count with
  | zero =>
    refine ⟨rfl, ?_⟩
    intro t inside
    have zero : word (List.replicate 16 0) t = 0 := by
      rw [word, List.getD, List.getElem?_replicate, if_pos inside]
      rfl
    have nothing : wordOf (upTo bytes 0) t = 0 := by simp [wordOf, upTo]
    rw [nothing]
    exact zero
  | succ count hypothesis =>
    obtain ⟨length, words⟩ := hypothesis (by omega)
    have next : filled bytes (count + 1) = (filled bytes count).set (count / 4)
        (word (filled bytes count) (count / 4) |||
          (bytes count).toUInt32 <<< UInt32.ofNat (24 - count % 4 * 8)) := by
      rw [filled, List.range_succ, List.foldl_append]
      rfl
    refine ⟨by rw [next, List.length_set, length], ?_⟩
    intro t inside
    rw [next, word, List.getD]
    by_cases here : count / 4 = t
    · rw [here, List.getElem?_set_self (by rw [length]; exact inside), ← here, words _ (by omega),
        wordOf_upTo_here]
      rfl
    · rw [List.getElem?_set_ne here, ← wordOf_upTo_else bytes here, ← words t inside]
      rfl

/-- The padded block of a short input: input and mark, zeros, length. -/
theorem padded_getD {input : List UInt8} (short : input.length ≤ 55) :
    (∀ index < 56, (input ++ Sha256.padding input.length).getD index 0 =
      upTo (fun index => (input ++ [0x80]).getD index 0) (input.length + 1) index) ∧
    ∀ index, (input ++ Sha256.padding input.length).getD (56 + index) 0 =
      (Sha256.lengthBytes input.length).getD index 0 := by
  have room : (119 - input.length % 64) % 64 = 55 - input.length := by omega
  have split : input ++ Sha256.padding input.length =
      (input ++ [0x80]) ++ (List.replicate (55 - input.length) 0 ++ Sha256.lengthBytes input.length) := by
    rw [Sha256.padding, room, List.append_assoc, List.singleton_append]
  have front : (input ++ [0x80]).length = input.length + 1 := by
    rw [List.length_append, List.length_singleton]
  have zeros : (List.replicate (55 - input.length) (0 : UInt8)).length = 55 - input.length := List.length_replicate
  rw [split]
  constructor
  · intro index inside
    by_cases early : index < input.length + 1
    · rw [upTo, if_pos early, List.getD_append _ _ _ _ (by omega)]
    · rw [upTo, if_neg early, List.getD_append_right _ _ _ _ (by omega),
        List.getD_append _ _ _ _ (by omega), List.getD, List.getElem?_replicate, if_pos (by omega)]
      rfl
  · intro index
    have left : 56 + index - (input ++ [0x80]).length - (List.replicate (55 - input.length) (0 : UInt8)).length =
        index := by omega
    rw [List.getD_append_right _ _ _ _ (by omega), List.getD_append_right _ _ _ _ (by omega), left]

/-- The two words of the length. -/
theorem lengthWords {length : Nat} (short : length ≤ 55) :
    wordOf (fun index => (Sha256.lengthBytes length).getD index 0) 0 = ((UInt64.ofNat length * 8) >>> 32).toUInt32 ∧
    wordOf (fun index => (Sha256.lengthBytes length).getD index 0) 1 = (UInt64.ofNat length * 8).toUInt32 := by
  have all : ∀ length < 56,
      wordOf (fun index => (Sha256.lengthBytes length).getD index 0) 0 = ((UInt64.ofNat length * 8) >>> 32).toUInt32 ∧
      wordOf (fun index => (Sha256.lengthBytes length).getD index 0) 1 = (UInt64.ofNat length * 8).toUInt32 := by
    decide +kernel
  exact all length (by omega)

theorem initialSchedule_filled (input : List UInt8) : initialSchedule input =
    ((filled (fun index => (input ++ [0x80]).getD index 0) (input.length + 1)).set 14
      ((UInt64.ofNat input.length * 8) >>> 32).toUInt32).set 15 (UInt64.ofNat input.length * 8).toUInt32 := by
  have front : (List.range input.length).foldl (fun schedule index => schedule.set (index / 4)
        (word schedule (index / 4) ||| (input.getD index 0).toUInt32 <<< UInt32.ofNat (24 - index % 4 * 8)))
        (List.replicate 16 0) =
      filled (fun index => (input ++ [0x80]).getD index 0) input.length := by
    apply List.foldl_ext
    intro schedule index member
    rw [← List.getD_append input [0x80] 0 index (List.mem_range.mp member)]
  have mark : ((input ++ [0x80]).getD input.length 0).toUInt32 = 0x80 := by
    rw [List.getD_append_right _ _ _ _ le_rfl, Nat.sub_self]
    rfl
  have next : filled (fun index => (input ++ [0x80]).getD index 0) (input.length + 1) =
      (filled (fun index => (input ++ [0x80]).getD index 0) input.length).set (input.length / 4)
        (word (filled (fun index => (input ++ [0x80]).getD index 0) input.length) (input.length / 4) |||
          0x80 <<< UInt32.ofNat (24 - input.length % 4 * 8)) := by
    rw [← mark, filled, List.range_succ, List.foldl_append]
    rfl
  rw [initialSchedule, front, next]

/-- The block of a short input on the device is the standard's. -/
theorem initialSchedule_rolling {input : List UInt8} (short : input.length ≤ 55) :
    Rolling (Sha256.schedule (Sha256.blockWord (input ++ Sha256.padding input.length) 0)) 0
      (initialSchedule input) := by
  obtain ⟨front, back⟩ := padded_getD short
  obtain ⟨length, words⟩ := filled_word (fun index => (input ++ [0x80]).getD index 0)
    (by omega : input.length + 1 ≤ 64)
  obtain ⟨high, low⟩ := lengthWords short
  have standard (t : Nat) : Sha256.blockWord (input ++ Sha256.padding input.length) 0 t =
      wordOf (fun index => (input ++ Sha256.padding input.length).getD index 0) t := by
    rw [Sha256.blockWord, Nat.mul_zero, Nat.zero_add, wordOf]
  rw [initialSchedule_filled]
  refine ⟨by rw [List.length_set, List.length_set, length], ?_⟩
  intro t inside _
  rw [max_eq_left (by omega)] at inside
  rw [Nat.mod_eq_of_lt inside, Sha256.schedule_block _ inside, standard]
  by_cases last : t = 15
  · have bytes : wordOf (fun index => (input ++ Sha256.padding input.length).getD index 0) 15 =
        wordOf (fun index => (Sha256.lengthBytes input.length).getD index 0) 1 := by
      rw [wordOf, wordOf, ← back, ← back, ← back, ← back]
    rw [last, bytes, low, word, List.getD, List.getElem?_set_self (by rw [List.length_set, length]; omega)]
    rfl
  rw [word, List.getD, List.getElem?_set_ne (Ne.symm last)]
  by_cases fourteenth : t = 14
  · have bytes : wordOf (fun index => (input ++ Sha256.padding input.length).getD index 0) 14 =
        wordOf (fun index => (Sha256.lengthBytes input.length).getD index 0) 0 := by
      rw [wordOf, wordOf, ← back, ← back, ← back, ← back]
    rw [fourteenth, bytes, high, List.getElem?_set_self (by rw [length]; omega)]
    rfl
  · have same : wordOf (fun index => (input ++ Sha256.padding input.length).getD index 0) t =
        wordOf (upTo (fun index => (input ++ [0x80]).getD index 0) (input.length + 1)) t := by
      apply wordOf_congr
      intro offset small
      exact front _ (by omega)
    rw [List.getElem?_set_ne (Ne.symm fourteenth), same, ← words t inside]
    rfl

/-- The single block of the device is SHA-256 of a short input. -/
theorem deviceSha256_eq {input : List UInt8} (short : input.length ≤ 55) :
    deviceSha256SingleBlock input = Sha256.digest input := by
  obtain ⟨-, turned⟩ := @foldl_sha256Turn _ _ ({} : Sha256State) (initialSchedule_rolling short) 64
  have initial : ({} : Sha256State).chaining = Sha256.Chaining.initial := rfl
  rw [initial] at turned
  rw [Sha256.digest_short short, Sha256.compress, ← turned, deviceSha256SingleBlock]
  generalize ((List.range 64).foldl sha256Turn (initialSchedule input, ({} : Sha256State))).2 = final
  rfl

/-- The payload that `point_to_address` makes of a serialised point. -/
def hostPayload (publicKey : List UInt8) : List UInt8 :=
  let digest := keccak256 publicKey
  0x41 :: digest.drop (digest.length - 20)

/-- `point_to_address`, of the coordinates of the serialised point. -/
def pointToAddress (publicKey : List UInt8) : Except Base58Error Text :=
  let payload := hostPayload publicKey
  let secondHash := Sha256.digest (Sha256.digest payload)
  base58Encode (payload ++ secondHash.take 4)

section
variable {publicKey : List UInt8}

theorem hostPayload_eq (size : publicKey.length = 64) :
    hostPayload publicKey = deviceTronPayloadFromPublicKey publicKey := by
  have same := deviceKeccak25664_eq size
  have length := length_deviceKeccak25664 publicKey
  rw [same] at length
  have taken : ((keccak256 publicKey).drop 12).take 20 = (keccak256 publicKey).drop 12 :=
    List.take_of_length_le (by rw [List.length_drop]; omega)
  rw [hostPayload, deviceTronPayloadFromPublicKey, same, length, taken]

theorem deviceChecksum_eq {payload : List UInt8} (size : payload.length = 21) :
    deviceChecksum payload = (Sha256.digest (Sha256.digest payload)).take 4 := by
  have first := deviceSha256_eq (by omega : payload.length ≤ 55)
  have second : deviceSha256SingleBlock (Sha256.digest payload) = Sha256.digest (Sha256.digest payload) :=
    deviceSha256_eq (by rw [Sha256.length_digest]; omega)
  rw [deviceChecksum, first, second]

/-- The host derives the device's address. -/
theorem pointToAddress_eq (size : publicKey.length = 64) :
    pointToAddress publicKey = .ok (deviceTronAddressFromPublicKey publicKey) := by
  have tron := tronPayload_fromPublicKey publicKey
  rw [pointToAddress, deviceAddress_text, hostPayload_eq size, deviceChecksum_eq tron.size, base58Encode_eq]

end

end TronForge.Native
