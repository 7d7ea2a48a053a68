import TronForge.Telegram.Deliveries

/-! The amount of a funding from the text of a user to the record of the server: what the
form takes, the client and the server take too, and no step changes the amount. -/

namespace TronForge.Telegram

open Library
open Native (Text)
open Funding (FundingCreate formatMicroUsdt parse_iff write_unspaced formatMicroUsdt_read)
open Service (pythonSpace stripSpace stripSpace_unpadded Unpadded)

/-- The amount in the body that `create_funding` of the client sends, if its check passes. -/
def fundingBody (digits : DigitSet) (amount : Text) : Option Text :=
  (FundingCreate.parse digits amount).map fun validated => validated.amount.write

/-- From the form over the client to the server and back, the amount stays what it was. -/
structure SameAmount (digits : DigitSet) (raw : Text) (payload : FundingCreate) : Prop where
  typed : Decimal.read digits raw = some payload.amount
  sent : fundingBody digits raw = some payload.amount.write
  received : FundingCreate.parse digits payload.amount.write = some payload
  stored : (payload.amountMicroUsdt : ℚ) = payload.amount.value * 10 ^ 6
  bounded : 1000000 ≤ payload.amountMicroUsdt ∧ payload.amountMicroUsdt ≤ 1500000000
  shown : ∃ shown, Decimal.read digits (formatMicroUsdt payload.amountMicroUsdt).toList = some shown ∧
    shown.value = payload.amount.value

theorem unpadded_of_unspaced {text : Text} (unspaced : ∀ character ∈ text, pythonSpace character = false) :
    Unpadded text where
  first character member := unspaced character (List.mem_of_mem_head? member)
  last character member := unspaced character (List.mem_of_mem_getLast? member)

section Amounts
variable {digits : DigitSet} {raw : Text}

/-- What the regular expression lets through: digits, and behind a point at most six more. -/
theorem acceptsAmount_layout (accepted : acceptsAmount digits raw = true) :
    ∃ whole fraction, raw = Decimal.layout whole fraction 0 ∧ whole ≠ [] ∧ fraction.length ≤ 6 ∧
      ∀ character ∈ whole ++ fraction, digits.isDigit character = true := by
  simp only [acceptsAmount, Bool.and_eq_true, decide_eq_true_eq, Bool.or_eq_true] at accepted
  obtain ⟨⟨some_, shape⟩, -⟩ := accepted
  have split : digits.leading raw ++ digits.after raw = raw := List.takeWhile_append_dropWhile
  have wholeKnown (character : Char) (member : character ∈ digits.leading raw) : digits.isDigit character = true :=
    List.mem_takeWhile_imp member
  rcases shape with ended | ⟨⟨point, known⟩, least, short⟩
  · refine ⟨digits.leading raw, [], ?_, some_, Nat.zero_le _, ?_⟩
    · rw [ended, List.append_nil] at split
      simp [Decimal.layout, Decimal.exponentText, split]
    · rwa [List.append_nil]
  · have behind : digits.after raw = '.' :: (digits.after raw).tail := by
      obtain ⟨rest, same⟩ := List.head?_eq_some_iff.mp point
      rw [same, List.tail_cons]
    refine ⟨digits.leading raw, (digits.after raw).tail, ?_, some_, short, ?_⟩
    · have filled : (digits.after raw).tail ≠ [] := List.length_pos_iff.mp least
      rw [behind] at split
      rw [Decimal.layout, if_neg filled, Decimal.exponentText, if_pos rfl, List.append_nil, split]
    · intro character member
      rcases List.mem_append.mp member with inside | inside
      · exact wholeKnown character inside
      · exact List.all_eq_true.mp known character inside

/-- What the form takes is an amount of the schema. -/
theorem acceptsAmount_valid (accepted : acceptsAmount digits raw = true) :
    ∃ payload : FundingCreate, Decimal.read digits raw = some payload.amount ∧ payload.Valid := by
  obtain ⟨whole, fraction, laid, some_, short, known⟩ := acceptsAmount_layout accepted
  have read := Decimal.read_layout known some_ 0
  rw [← laid] at read
  simp only [acceptsAmount, Bool.and_eq_true, read, Option.any_some, Decimal.atMost_iff] at accepted
  obtain ⟨-, least, most⟩ := accepted
  rw [Funding.Decimal.value_ofNat] at least most
  refine ⟨⟨_⟩, read, ⟨by simpa using least, by simpa using most, ?_⟩⟩
  show (-6 : Int) ≤ 0 - fraction.length
  omega

variable (visible : ∀ character, digits.isDigit character = true → pythonSpace character = false)
include visible

theorem acceptsAmount_unspaced (accepted : acceptsAmount digits raw = true) :
    ∀ character ∈ raw, pythonSpace character = false := by
  obtain ⟨whole, fraction, laid, -, -, known⟩ := acceptsAmount_layout accepted
  intro character member
  rw [laid] at member
  rcases List.mem_append.mp member with front | behind
  · rcases List.mem_append.mp front with inside | pointed
    · exact visible character (known character (List.mem_append_left _ inside))
    · split at pointed
      · cases pointed
      · rcases List.mem_cons.mp pointed with point | inside
        · rw [point]
          rfl
        · exact visible character (known character (List.mem_append_right _ inside))
  · cases behind

theorem sameAmount (accepted : acceptsAmount digits raw = true) : ∃ payload, SameAmount digits raw payload := by
  obtain ⟨payload, read, valid⟩ := acceptsAmount_valid accepted
  have rawSame := stripSpace_unpadded (unpadded_of_unspaced (acceptsAmount_unspaced visible accepted))
  have sentSame := stripSpace_unpadded (unpadded_of_unspaced (write_unspaced payload.amount))
  have parsed : FundingCreate.parse digits raw = some payload := parse_iff.mpr ⟨by rw [rawSame, read], valid⟩
  have stored := valid.amountMicroUsdt
  obtain ⟨shown, again, same⟩ := @formatMicroUsdt_read digits payload.amountMicroUsdt
  refine ⟨payload, read, ?_, parse_iff.mpr ⟨by rw [sentSame, Decimal.read_write], valid⟩, stored, ?_, shown, again, ?_⟩
  · rw [fundingBody, parsed]
    rfl
  · have least := valid.atLeast
    have most := valid.atMost
    constructor
    · have scaled : (1000000 : ℚ) ≤ payload.amountMicroUsdt := by linarith
      exact_mod_cast scaled
    · have scaled : (payload.amountMicroUsdt : ℚ) ≤ 1500000000 := by linarith
      exact_mod_cast scaled
  · linarith

end Amounts

section History
variable {settings : BotSettings} {digits : DigitSet} {formatCount : Nat → String}
  {pool : (bot settings formatCount digits).Pool} {task : BotTask} {id : Uuid} {amount : Text}

theorem createFunding_accepted (reachable : Reachable settings formatCount digits pool)
    (called : BotEvent.called task (.createFunding id amount) ∈ pool.world.history) :
    acceptsAmount digits amount = true := by
  have sound := reachable_sound reachable
  have permits := sound.history _ _ called
  cases task with
  | update incoming =>
    obtain ⟨-, own⟩ := handler_permitted sound called rfl
    exact (permits_api own rfl).2.2.2.2
  | monitor own watch previousText => cases permitsWatch_api permits.2 rfl
  | monitorFunding own watch previousText => cases permitsFundingWatch_api permits.2 rfl
  | jobDone jobId => cases permits
  | fundingDone jobId => cases permits

/-- Whatever amount the bot asks the API for, the server stores and shows exactly that. -/
theorem funding_amounts_kept
    (visible : ∀ character, digits.isDigit character = true → pythonSpace character = false)
    (reachable : Reachable settings formatCount digits pool)
    (called : BotEvent.called task (.createFunding id amount) ∈ pool.world.history) :
    ∃ payload, SameAmount digits amount payload :=
  sameAmount visible (createFunding_accepted reachable called)

theorem visible_plain (character : Char) (known : DigitSet.plain.isDigit character = true) :
    pythonSpace character = false := by
  obtain ⟨digit, found⟩ := Option.isSome_iff_exists.mp known
  have all : ∀ digit ∈ List.range 10, pythonSpace (Nat.digitChar digit) = false := by decide
  have same := @List.find?_some _ (fun digit => decide (Nat.digitChar digit = character)) _ _ found
  rw [← of_decide_eq_true same]
  exact all digit (List.mem_range.mpr (DigitSet.plain.small found))

theorem amount_kept : ∃ payload, SameAmount DigitSet.plain "2.50".toList payload := by
  obtain ⟨pool, reachable, sent⟩ := replay_reachable fundActions (fun world => decide (BotEvent.called
    (.update (ownerPress (confirmData 5))) (.createFunding 5 "2.50".toList) ∈ world.history)) rfl
  exact funding_amounts_kept visible_plain reachable (of_decide_eq_true sent)

end History

end TronForge.Telegram
