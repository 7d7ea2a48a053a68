import TronForge.Telegram.Updates

/-! The buttons that the bot offers: each leads to a handler of the router, which reads
the job or the pattern that the bot wrote into it. -/

namespace TronForge.Telegram

open Library
open Generator (PatternType)
open Native (Text nibble hexCharacter nibble_hexCharacter)
open Service (intBase16_digits nativeText nativeText_ascii)

section Identifiers
variable {text : Text} {id : Uuid}

theorem uuidHex_known : ∀ character ∈ uuidHex id, (nibble character).isSome = true := by
  intro character member
  obtain ⟨digit, inside, rfl⟩ := List.mem_map.mp member
  rw [nibble_hexCharacter (Digits.fixed_lt (by norm_num) 32 id.val digit inside)]
  rfl

theorem length_uuidHex : (uuidHex id).length = 32 := by
  rw [uuidHex, List.length_map, Digits.length_fixed]

/-- The characters of an identifier. -/
theorem mem_uuidText {character : Char} (member : character ∈ uuidText id) :
    character = '-' ∨ character ∈ uuidHex id := by
  have pieces : character ∈ (uuidHex id).take 8 ∨ character = '-' ∨ character ∈ ((uuidHex id).drop 8).take 4 ∨
      character = '-' ∨ character ∈ ((uuidHex id).drop 12).take 4 ∨ character = '-' ∨
      character ∈ ((uuidHex id).drop 16).take 4 ∨ character = '-' ∨ character ∈ (uuidHex id).drop 20 := by
    simpa only [uuidText, List.mem_append, List.mem_cons, or_assoc] using member
  rcases pieces with piece | dash | piece | dash | piece | dash | piece | dash | piece
  · exact .inr (List.mem_of_mem_take piece)
  · exact .inl dash
  · exact .inr (List.mem_of_mem_drop (List.mem_of_mem_take piece))
  · exact .inl dash
  · exact .inr (List.mem_of_mem_drop (List.mem_of_mem_take piece))
  · exact .inl dash
  · exact .inr (List.mem_of_mem_drop (List.mem_of_mem_take piece))
  · exact .inl dash
  · exact .inr (List.mem_of_mem_drop piece)

theorem not_mem_uuidText {mark : Char} (unknown : nibble mark = none) (other : mark ≠ '-') : mark ∉ uuidText id := by
  intro member
  rcases mem_uuidText member with dash | digit
  · exact other dash
  · have known := uuidHex_known mark digit
    rw [unknown] at known
    cases known

/-- Without its dashes an identifier is its digits. -/
theorem filter_uuidText : (uuidText id).filter (· ≠ '-') = uuidHex id := by
  have kept (piece : Text) (inside : ∀ character ∈ piece, character ∈ uuidHex id) :
      piece.filter (· ≠ '-') = piece := by
    apply List.filter_eq_self.mpr
    intro character member
    apply decide_eq_true
    intro dash
    subst dash
    have known := uuidHex_known '-' (inside _ member)
    cases known
  have rebuilt : (uuidHex id).take 8 ++ (((uuidHex id).drop 8).take 4 ++ (((uuidHex id).drop 12).take 4 ++
      (((uuidHex id).drop 16).take 4 ++ (uuidHex id).drop 20))) = uuidHex id := by
    have joined (start : Nat) : ((uuidHex id).drop start).take 4 ++ (uuidHex id).drop (start + 4) = (uuidHex id).drop start := by
      have whole := List.take_append_drop 4 ((uuidHex id).drop start)
      rwa [List.drop_drop] at whole
    rw [joined 16, joined 12, joined 8, List.take_append_drop]
  have dash : decide ('-' ≠ '-') = false := rfl
  simp only [uuidText, List.filter_append, List.filter_cons, dash, Bool.false_eq_true, if_false, List.append_assoc]
  rw [kept _ fun _ => List.mem_of_mem_take, kept _ fun _ member => List.mem_of_mem_drop (List.mem_of_mem_take member),
    kept _ fun _ member => List.mem_of_mem_drop (List.mem_of_mem_take member),
    kept _ fun _ member => List.mem_of_mem_drop (List.mem_of_mem_take member), kept _ fun _ => List.mem_of_mem_drop]
  exact rebuilt

theorem removeAll_absent {first : Char} {rest : Text} (absent : first ∉ text) :
    removeAll (first :: rest) 0 text = text := by
  induction text with
  | nil => rfl
  | cons character text hypothesis =>
    obtain ⟨different, absent⟩ := List.ne_and_not_mem_of_not_mem_cons absent
    have other : (first :: rest).isPrefixOf (character :: text) = false := by simp [List.isPrefixOf, different]
    rw [removeAll, other, if_neg Bool.false_ne_true, hypothesis absent]

theorem stripBraces_absent (left : '\x7b' ∉ text) (right : '\x7d' ∉ text) : stripBraces text = text := by
  have plain (part : Text) (inside : ∀ character ∈ part, character ∈ text) :
      part.dropWhile (fun character => decide (character = '\x7b') || decide (character = '\x7d')) = part := by
    cases part with
    | nil => rfl
    | cons character rest =>
      have member := inside character List.mem_cons_self
      have notLeft : character ≠ '\x7b' := fun same => left (same ▸ member)
      have notRight : character ≠ '\x7d' := fun same => right (same ▸ member)
      exact List.dropWhile_cons_of_neg (by simp [notLeft, notRight])
  rw [stripBraces, plain text fun _ => id, plain text.reverse fun _ => List.mem_reverse.mp, List.reverse_reverse]

/-- An identifier is read as it was written. -/
theorem parseUuid_uuidText (digits : DigitSet) (id : Uuid) : parseUuid digits (uuidText id) = .ok id := by
  have small : ∀ digit ∈ Digits.fixed 16 32 id.val, digit < 16 := Digits.fixed_lt (by norm_num) 32 id.val
  have some_ : Digits.fixed 16 32 id.val ≠ [] := by
    rw [ne_eq, ← List.length_eq_zero_iff, Digits.length_fixed]
    norm_num
  have bound : id.val < 16 ^ 32 := id.isLt.trans_eq (by norm_num)
  have read := intBase16_digits digits small some_
  rw [Digits.value_fixed bound] at read
  have urn : removeAll "urn:".toList 0 (uuidText id) = uuidText id :=
    removeAll_absent (not_mem_uuidText (by decide) (by decide))
  have named : removeAll "uuid:".toList 0 (uuidText id) = uuidText id :=
    removeAll_absent (not_mem_uuidText (by decide) (by decide))
  have bare : stripBraces (uuidText id) = uuidText id :=
    stripBraces_absent (not_mem_uuidText (by decide) (by decide)) (not_mem_uuidText (by decide) (by decide))
  simp only [parseUuid, urn, named, bare, filter_uuidText, length_uuidHex, ne_eq, not_true_eq_false, if_false]
  rw [show uuidHex id = (Digits.fixed 16 32 id.val).map hexCharacter from rfl, read]
  have fits : 0 ≤ (id.val : Int) ∧ (id.val : Int).toNat < 2 ^ 128 := ⟨Int.natCast_nonneg _, id.isLt⟩
  exact dif_pos fits

theorem afterLastColon_append {front : Text} (absent : ':' ∉ text) : afterLastColon (front ++ ':' :: text) = text := by
  have kept : ∀ character ∈ text.reverse, decide (character ≠ ':') = true := by
    intro character member
    apply decide_eq_true
    intro same
    exact absent (same ▸ List.mem_reverse.mp member)
  rw [afterLastColon, List.reverse_append, List.reverse_cons, List.append_assoc, List.takeWhile_append_of_pos kept,
    List.singleton_append, List.takeWhile_cons_of_neg (by simp), List.append_nil, List.reverse_reverse]

theorem length_uuidText : (uuidText id).length = 36 := by
  simp [uuidText, length_uuidHex]

end Identifiers

def JobAction.handler : JobAction → Handler
  | .watch => .watchJob
  | .cancel => .cancelJob
  | .reveal => .revealJob
  | .fund => .startFunding

/-- What a button asks for: a fixed entry of the router, a pattern, an action on a job, or
the funding of one. -/
inductive Offer where
  | fixed (data : Text) (handler : Handler) (listed : (data, false, handler) ∈ callbackFilters)
  | pattern (chosen : PatternType)
  | job (action : JobAction) (id : Uuid)
  | confirm (id : Uuid)

namespace Offer

def data : Offer → Text
  | .fixed data _ _ => data
  | .pattern chosen => patternData chosen
  | .job action id => jobData action id
  | .confirm id => confirmData id

def handler : Offer → Handler
  | .fixed _ handler _ => handler
  | .pattern _ => .receivePattern
  | .job action _ => action.handler
  | .confirm _ => .confirmFunding

/-- What the handler reads of the data. -/
def Reads : Offer → Prop
  | .fixed .. => True
  | .pattern chosen => Service.PatternType.ofName (((patternData chosen).dropWhile (· ≠ ':')).drop 1) = some chosen
  | .job action id => ∀ digits : DigitSet, parseUuid digits (afterLastColon (jobData action id)) = .ok id
  | .confirm id => ∀ digits : DigitSet, parseUuid digits (afterLastColon (confirmData id)) = .ok id

/-- The data leads to its handler, which reads what was written, and fits into the 64
bytes of a button. -/
structure Understood (offer : Offer) : Prop where
  handled : callbackHandler offer.data = some offer.handler
  reads : offer.Reads
  bytes : (nativeText offer.data).length ≤ 64

theorem callbackHandler_fixed : ∀ entry ∈ callbackFilters, entry.2.1 = false → callbackHandler entry.1 = some entry.2.2 := by
  decide

/-- Filters for the start of the data do not look behind it. -/
theorem callbackHandler_confirm (rest : Text) :
    callbackHandler ("funding:confirm".toList ++ ':' :: rest) = some .confirmFunding := rfl

theorem callbackHandler_job (action : JobAction) (rest : Text) :
    callbackHandler ("job:".toList ++ action.value ++ ':' :: rest) = some action.handler := by
  cases action <;> rfl

theorem ascii_uuidText {id : Uuid} : ∀ character ∈ uuidText id, character.toNat < 128 := by
  intro character member
  rcases mem_uuidText member with dash | digit
  · rw [dash]
    decide
  · obtain ⟨value, inside, rfl⟩ := List.mem_map.mp digit
    have all : ∀ value ∈ List.range 16, (hexCharacter value).toNat < 128 := by decide
    exact all value (List.mem_range.mpr (Digits.fixed_lt (by norm_num) 32 id.val value inside))

theorem bytes_append {front : Text} {id : Uuid} (ascii : ∀ character ∈ front, character.toNat < 128)
    (short : front.length ≤ 28) : (nativeText (front ++ uuidText id)).length ≤ 64 := by
  rw [nativeText_ascii, List.length_append, length_uuidText]
  · omega
  · intro character member
    rcases List.mem_append.mp member with front | back
    · exact ascii character front
    · exact ascii_uuidText character back

theorem bytes_fixed : ∀ entry ∈ callbackFilters, (nativeText entry.1).length ≤ 64 := by decide

theorem understood (offer : Offer) : offer.Understood := by
  have colon {id : Uuid} : ':' ∉ uuidText id := not_mem_uuidText (by decide) (by decide)
  cases offer with
  | fixed data handler listed =>
    exact ⟨callbackHandler_fixed _ listed rfl, trivial, bytes_fixed _ listed⟩
  | pattern chosen =>
    constructor
    · cases chosen <;> rfl
    · cases chosen <;> rfl
    · show (nativeText (patternData chosen)).length ≤ 64
      cases chosen <;> decide
  | job action id =>
    refine ⟨callbackHandler_job action _, ?_, ?_⟩
    · intro digits
      rw [jobData, afterLastColon_append colon, parseUuid_uuidText]
    · have split : jobData action id = ("job:".toList ++ action.value ++ [':']) ++ uuidText id := by simp [jobData]
      show (nativeText (jobData action id)).length ≤ 64
      rw [split]
      apply bytes_append
      · cases action <;> decide
      · cases action <;> decide
  | confirm id =>
    refine ⟨callbackHandler_confirm _, ?_, ?_⟩
    · unfold Reads confirmData
      dsimp only
      intro digits
      rw [afterLastColon_append colon, parseUuid_uuidText]
    · unfold data confirmData
      dsimp only
      rw [List.append_cons]
      apply bytes_append
      · decide
      · decide

end Offer

/-- Every button of a markup is an offer. -/
def Markup.Offers : Markup → Prop
  | .buttons rows => ∀ row ∈ rows, ∀ button ∈ row, ∃ offer : Offer, button.callbackData = offer.data
  | _ => True

end TronForge.Telegram
