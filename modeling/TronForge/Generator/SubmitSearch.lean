import TronForge.Generator.Repository
import TronForge.Native.ServeGpu
import TronForge.Service.JobRequests

/-! The line that a worker writes for a batch, and that the native process reads the
batch back from it. -/

namespace TronForge.Generator

open Library
open Native (Text scalarHex groupOrder isSpace decimalText getline readCommand parseRangeStart bytesToHex
  compressedBytes generator)
open Service (GenerationJobCreate CreatedFrom createdJob_createdFrom)

inductive WorkerError where
  | startNotPositive
  | startTooBig
  deriving DecidableEq, Repr

def WorkerError.message : WorkerError → String
  | .startNotPositive => "CUDA range start must be positive."
  | .startTooBig => "int too big to convert"

/-- `scalar_hex` of the worker. -/
def workerScalarHex (value : Nat) : Except WorkerError Text :=
  if value < 1 then throw .startNotPositive
  else if 256 ^ 32 ≤ value then throw .startTooBig
  else return scalarHex value

/-- What `submit_search` writes. -/
def submitSearch (assignment : WorkAssignment) (batchStart batchCount : Nat) : Except WorkerError Text := do
  let start ← workerScalarHex batchStart
  return [' '].intercalate ["SEARCH".toList, assignment.clientPublicKey.toList, assignment.pattern.toList,
    assignment.addressPrefix.toList.drop 1, assignment.suffix.toList, start, decimalText batchCount] ++ ['\n']

theorem isWord_base58 {text : Text} (some_ : text ≠ [])
    (known : ∀ character ∈ text, character ∈ Native.base58Alphabet) : IsWord isSpace text :=
  ⟨some_, fun character member => Native.isSpace_of_base58 (known character member)⟩

theorem isWord_bytesToHex {bytes : List UInt8} (some_ : 0 < bytes.length) : IsWord isSpace (bytesToHex bytes) := by
  constructor
  · rw [ne_eq, ← List.length_eq_zero_iff, Native.length_bytesToHex]
    omega
  · exact fun character member => Native.isSpace_of_nibble (Native.nibble_bytesToHex member)

theorem isWord_scalarHex (scalar : Nat) : IsWord isSpace (scalarHex scalar) := by
  constructor
  · rw [ne_eq, ← List.length_eq_zero_iff, Native.length_scalarHex]
    omega
  · exact fun character member => Native.isSpace_of_nibble (Native.nibble_scalarHex member)

theorem isWord_decimalText (number : Nat) : IsWord isSpace (decimalText number) :=
  ⟨Nat.toDigits_ne_nil, fun character member => Native.isSpace_of_isDigit (Native.isDigit_decimalText character member)⟩

theorem isWord_pattern (pattern : PatternType) : IsWord isSpace pattern.value.toList := by
  cases pattern <;> exact ⟨by decide, by decide⟩

/-- A worker's line for a job is read as the batch of the job, and the native program
accepts its key, its pattern and its start. -/
theorem search_line_read_back {payload : GenerationJobCreate} (accepted : payload.validatePattern = .ok ())
    {secret : Nat} (secretPositive : 0 < secret) (secretBelow : secret < groupOrder) {job : GenerationJob}
    (created : CreatedFrom payload secret job) (device : GpuDevice) (rangeStart rangeCount kernelBatchMs : Nat)
    (lease : Lease) {batchStart batchCount : Nat} (startPositive : 1 ≤ batchStart)
    (startBelow : batchStart < secp256k1Order) (countLimit : batchCount ≤ 2 ^ 26) (following : Text) :
    ∃ line, submitSearch (newAssignment job device rangeStart rangeCount kernelBatchMs lease) batchStart batchCount =
        .ok (line ++ ['\n']) ∧
      getline (line ++ '\n' :: following) = some (line, following) ∧
      readCommand line = .search ⟨job.clientPublicKey.toList, job.patternType.value.toList,
        job.addressPrefix.toList.drop 1, job.suffix.toList, scalarHex batchStart, batchCount⟩ ∧
      parseRangeStart (scalarHex batchStart) = .ok (batchStart : Int) ∧
      Native.validatePattern job.patternType.value.toList (job.addressPrefix.toList.drop 1) job.suffix.toList =
        .ok () := by
  obtain ⟨prefixed, valid⟩ := Service.validatePattern_native accepted
  have shape := Native.validatePattern_ok valid
  have pattern : job.patternType.value.toList = payload.pattern.value.toList := by rw [created.patternType]
  have afterT : job.addressPrefix.toList.drop 1 = payload.addressPrefix.tail := by
    rw [created.addressPrefix, String.toList_ofList, List.drop_one]
  have suffix : job.suffix.toList = payload.suffix := by rw [created.suffix, String.toList_ofList]
  have key : job.clientPublicKey.toList = bytesToHex (compressedBytes (secret • generator)) := by
    rw [created.clientPublicKey, String.toList_ofList]
    rfl
  have fits : batchStart < 256 ^ 32 := startBelow.trans (by norm_num [secp256k1Order])
  have finite := Native.nsmul_generator_ne_zero secretPositive secretBelow
  have started : workerScalarHex batchStart = .ok (scalarHex batchStart) := by
    rw [workerScalarHex, if_neg (by omega), if_neg (by omega)]
    rfl
  have areWords : ∀ word ∈ ["SEARCH".toList, job.clientPublicKey.toList, job.patternType.value.toList,
      job.addressPrefix.toList.drop 1, job.suffix.toList, scalarHex batchStart, decimalText batchCount],
      IsWord isSpace word := by
    have keyLength := Native.length_compressedBytes finite
    have afterTLength := shape.afterTLength
    have suffixLength := shape.suffixLength
    rw [key, pattern, afterT, suffix]
    simp only [List.forall_mem_cons]
    refine ⟨⟨by decide, by decide⟩, isWord_bytesToHex (by omega), isWord_pattern _, isWord_base58 ?_ ?_,
      isWord_base58 ?_ ?_, isWord_scalarHex _, isWord_decimalText _, fun word none_ => (by cases none_)⟩
    · exact List.ne_nil_of_length_pos (by omega)
    · exact fun character member => shape.characters character (List.mem_append_left _ member)
    · exact List.ne_nil_of_length_pos (by omega)
    · exact fun character member => shape.characters character (List.mem_append_right _ member)
  have written : submitSearch (newAssignment job device rangeStart rangeCount kernelBatchMs lease) batchStart
      batchCount = .ok ([' '].intercalate ["SEARCH".toList, job.clientPublicKey.toList, job.patternType.value.toList,
        job.addressPrefix.toList.drop 1, job.suffix.toList, scalarHex batchStart, decimalText batchCount] ++
          ['\n']) := by
    rw [submitSearch, started]
    rfl
  refine ⟨_, written, Native.getline_append ?_ following, ?_, Native.parseRangeStart_scalarHex fits, ?_⟩
  · rintro character member rfl
    rcases mem_intercalate member with blank | ⟨word, inside, has⟩
    · cases blank
    · have space := (areWords word inside).whole _ has
      cases space
  · exact Native.readCommand_search (words_intercalate rfl areWords) (countLimit.trans_lt (by norm_num))
  · rw [pattern, afterT, suffix]
    exact valid

/-- A payload with the shortest pattern. -/
def shortPayload : GenerationJobCreate := ⟨.twoByTwo, "TDv".toList, "9K".toList⟩

/-- A batch from a start whose digits are all decimal. -/
theorem search_line_read_back_decimal : ∃ job line,
    submitSearch (newAssignment job ⟨"gpu", 0, "", 0, .ready, "", 0, 0, none, none, none, none⟩ 7 2000 500 ⟨1, 1, 0⟩)
        7 1000 = .ok (line ++ ['\n']) ∧
      getline (line ++ '\n' :: []) = some (line, []) ∧
      readCommand line = .search ⟨job.clientPublicKey.toList, job.patternType.value.toList,
        job.addressPrefix.toList.drop 1, job.suffix.toList, scalarHex 7, 1000⟩ ∧
      parseRangeStart (scalarHex 7) = .ok ((7 : Nat) : Int) ∧
      Native.validatePattern job.patternType.value.toList (job.addressPrefix.toList.drop 1) job.suffix.toList =
        .ok () := by
  have order : 7 < groupOrder ∧ 7 < secp256k1Order := by norm_num [groupOrder, secp256k1Order]
  have accepted : shortPayload.validatePattern = .ok () := by decide
  exact ⟨_, search_line_read_back accepted (by norm_num) order.1 (createdJob_createdFrom shortPayload 7 id 1 1 0)
    ⟨"gpu", 0, "", 0, .ready, "", 0, 0, none, none, none, none⟩ 7 2000 500 ⟨1, 1, 0⟩ (by norm_num) order.2
    (by norm_num) []⟩

end TronForge.Generator
