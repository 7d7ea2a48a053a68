import TronForge.Generator.Results
import TronForge.Native.PublicKeys
import TronForge.Service.Patterns

/-! Requests for a job: their validation by the server, which agrees with the native
one, and the row of an accepted request. -/

namespace TronForge.Service

open Generator (PatternType GenerationJob JobId UserId Time newJob)
open Native (Text charAt base58Alphabet scalarHex bytesToHex compressedBytes generator)

/-- `PATTERN_LENGTHS`: the custom characters after `T`, and the suffix. -/
def patternLengths : PatternType → Nat × Nat
  | .threeByFour => (3, 4)
  | .twoByFive => (2, 5)
  | .fourByThree => (4, 3)
  | .twoByTwo => (2, 2)

inductive JobRequestError where
  | wrongLengths (pattern : PatternType)
  | missingT
  | invalidCharacters
  | invalidFirst
  deriving DecidableEq, Repr

def JobRequestError.message : JobRequestError → String
  | .wrongLengths pattern =>
    "Pattern " ++ pattern.value ++ " requires " ++ toString (patternLengths pattern).1 ++
      " prefix characters after the fixed T and " ++ toString (patternLengths pattern).2 ++ " suffix characters."
  | .missingT => "The prefix must begin with the fixed uppercase T."
  | .invalidCharacters => "Prefix and suffix must contain only valid TRON Base58 characters."
  | .invalidFirst => "The first character after T must be an uppercase Base58 letter or 9."

/-- `FIRST_CUSTOM_CHARACTER`. -/
def firstCustomCharacter (character : Char) : Bool :=
  character == '9' || decide ('A' ≤ character ∧ character ≤ 'H') ||
    decide ('J' ≤ character ∧ character ≤ 'N') || decide ('P' ≤ character ∧ character ≤ 'Z')

/-- `GenerationJobCreate`; the prefix has its `T`. -/
structure GenerationJobCreate where
  pattern : PatternType
  addressPrefix : Text
  suffix : Text
  deriving DecidableEq, Repr

/-- `GenerationJobCreate.validate_pattern`. -/
def GenerationJobCreate.validatePattern (payload : GenerationJobCreate) : Except JobRequestError Unit :=
  let (customPrefixLength, suffixLength) := patternLengths payload.pattern
  if payload.addressPrefix.length ≠ customPrefixLength + 1 ∨ payload.suffix.length ≠ suffixLength then
    throw (.wrongLengths payload.pattern)
  else if payload.addressPrefix.head? ≠ some 'T' then throw .missingT
  else if ∃ character ∈ payload.addressPrefix ++ payload.suffix, character ∉ base58Alphabet then
    throw .invalidCharacters
  else if !firstCustomCharacter (charAt payload.addressPrefix 1) then throw .invalidFirst
  else return ()

/-- `create_server_key_share`, for the secret scalar that it draws. -/
def createServerKeyShare (secret : Nat) : Text × Text :=
  (scalarHex secret, bytesToHex (compressedBytes (secret • generator)))

/-- The column of a compiled pattern. -/
def MatchSpec.stored (spec : MatchSpec) : Generator.MatchSpec :=
  ⟨spec.version, spec.prefixOptions, spec.suffixOptions⟩

/-- The row that `create_job` adds for an accepted payload. -/
def createdJob (payload : GenerationJobCreate) (secret : Nat) (encrypt : String → String) (id : JobId) (user : UserId)
    (now : Time) : GenerationJob :=
  let (basePrivateKey, publicKey) := createServerKeyShare secret
  newJob id user payload.pattern (String.ofList payload.addressPrefix) (String.ofList payload.suffix)
    (String.ofList publicKey) (encrypt (String.ofList basePrivateKey))
    (compileMatchSpec payload.addressPrefix payload.suffix).stored now

/-- The columns of a row that stay as `create_job` wrote them. -/
structure CreatedFrom (payload : GenerationJobCreate) (secret : Nat) (job : GenerationJob) : Prop where
  patternType : job.patternType = payload.pattern
  addressPrefix : job.addressPrefix = String.ofList payload.addressPrefix
  suffix : job.suffix = String.ofList payload.suffix
  clientPublicKey : job.clientPublicKey = String.ofList (createServerKeyShare secret).2
  matchSpec : job.matchSpec = (compileMatchSpec payload.addressPrefix payload.suffix).stored

theorem createdJob_createdFrom (payload : GenerationJobCreate) (secret : Nat) (encrypt : String → String) (id : JobId)
    (user : UserId) (now : Time) : CreatedFrom payload secret (createdJob payload secret encrypt id user now) :=
  ⟨rfl, rfl, rfl, rfl, rfl⟩

theorem firstCustomCharacter_allowed {character : Char} (known : character ∈ base58Alphabet)
    (first : firstCustomCharacter character = true) : character ∈ Native.allowedFirstCustom := by
  have all : ∀ character ∈ base58Alphabet, firstCustomCharacter character = true →
      character ∈ Native.allowedFirstCustom := by decide
  exact all character known first

/-- The lengths of the server are those of the native program. -/
theorem lookup_patternLengths (pattern : PatternType) :
    Native.patternLengths.lookup pattern.value.toList = some (patternLengths pattern) := by
  cases pattern <;> decide

/-- A payload that the server accepts is accepted by the native program, without its `T`. -/
theorem validatePattern_native {payload : GenerationJobCreate} (accepted : payload.validatePattern = .ok ()) :
    payload.addressPrefix = 'T' :: payload.addressPrefix.tail ∧
      Native.validatePattern payload.pattern.value.toList payload.addressPrefix.tail payload.suffix = .ok () := by
  have lengths := lookup_patternLengths payload.pattern
  simp only [GenerationJobCreate.validatePattern] at accepted
  split at accepted
  · cases accepted
  · rename_i long
    split at accepted
    · cases accepted
    · rename_i first
      split at accepted
      · cases accepted
      · rename_i characters
        split at accepted
        · cases accepted
        · rename_i custom
          obtain ⟨head, afterT, whole⟩ : ∃ head afterT, payload.addressPrefix = head :: afterT := by
            apply List.exists_cons_of_length_pos
            omega
          rw [whole] at first custom characters long ⊢
          obtain rfl : head = 'T' := by simpa using first
          have inside : ¬ ∃ character ∈ afterT ++ payload.suffix, character ∉ base58Alphabet :=
            fun ⟨character, member, unknown⟩ => characters ⟨character, List.mem_cons_of_mem _ member, unknown⟩
          refine ⟨rfl, ?_⟩
          simp only [not_or, not_not, List.length_cons, Nat.add_right_cancel_iff] at long
          have known : charAt afterT 0 ∈ base58Alphabet := by
            have some_ : 0 < afterT.length := by
              rw [long.1]
              cases payload.pattern <;> decide
            by_contra unknown
            exact inside ⟨_, List.mem_append_left _ (Native.charAt_mem some_), unknown⟩
          have allowed := firstCustomCharacter_allowed known (by simpa [charAt] using custom)
          rw [Native.validatePattern, lengths]
          simp only [List.tail_cons, long.1, long.2, ne_eq, not_true_eq_false, or_self, if_false, if_neg inside,
            not_not.mpr allowed]
          rfl

end TronForge.Service
