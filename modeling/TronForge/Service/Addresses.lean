import TronForge.Native.HostAddress

/-! Addresses as the server derives them, and that device, host and server agree on
the address of every public key. -/

namespace TronForge.Service

open Library
open Native (Text base58Alphabet base58Text base58Character bytesValue leadingZeroes)

/-- The loop of `base58check_encode`. -/
def encodeLoop (encodedValue : Nat) (encoded : Text) : Text :=
  if encodedValue = 0 then encoded
  else encodeLoop (encodedValue / 58) (base58Character (encodedValue % 58) :: encoded)
termination_by encodedValue

def base58checkEncode (payload : List UInt8) : Text :=
  let checksum := (Sha256.digest (Sha256.digest payload)).take 4
  List.replicate (leadingZeroes (payload ++ checksum)) '1' ++ encodeLoop (bytesValue (payload ++ checksum)) []

/-- `tron_address_from_public_key`, of the coordinates of the uncompressed key. -/
def tronAddressFromPublicKey (publicKey : List UInt8) : Text :=
  let digest := Keccak.digest publicKey
  base58checkEncode (0x41 :: digest.drop (digest.length - 20))

theorem encodeLoop_eq (number : Nat) (encoded : Text) :
    encodeLoop number encoded = (Nat.digits 58 number).reverse.map base58Character ++ encoded := by
  induction number using Nat.strong_induction_on generalizing encoded with
  | _ number hypothesis =>
    rw [encodeLoop]
    by_cases zero : number = 0
    · rw [if_pos zero, zero]
      rfl
    · have positive : 0 < number := Nat.pos_of_ne_zero zero
      rw [if_neg zero, hypothesis _ (Nat.div_lt_self positive (by omega)),
        Nat.digits_def' (by omega) positive, List.reverse_cons, List.map_append, List.append_assoc]
      rfl

theorem base58checkEncode_eq (payload : List UInt8) : base58checkEncode payload =
    base58Text (payload ++ (Sha256.digest (Sha256.digest payload)).take 4) := by
  rw [base58checkEncode, encodeLoop_eq, List.append_nil, base58Text]

section
variable {publicKey : List UInt8}

theorem serverAddress_eq (size : publicKey.length = 64) :
    tronAddressFromPublicKey publicKey = Native.deviceTronAddressFromPublicKey publicKey := by
  have payload := Native.hostPayload_eq size
  rw [Native.hostPayload, Native.keccak256_eq] at payload
  have tron := Native.tronPayload_fromPublicKey publicKey
  rw [tronAddressFromPublicKey, base58checkEncode_eq, payload, Native.deviceAddress_text,
    Native.deviceChecksum_eq tron.size]

/-- The three derivations agree on every public key, and so do their stages. -/
theorem addresses_agree (size : publicKey.length = 64) :
    Native.deviceKeccak25664 publicKey = Native.keccak256 publicKey ∧
    Native.keccak256 publicKey = Keccak.digest publicKey ∧
    (∀ payload : List UInt8, payload.length = 21 →
      Native.deviceSha256SingleBlock payload = Sha256.digest payload) ∧
    (∀ digest : List UInt8, digest.length = 32 →
      Native.deviceSha256SingleBlock digest = Sha256.digest digest) ∧
    Native.pointToAddress publicKey = .ok (Native.deviceTronAddressFromPublicKey publicKey) ∧
    tronAddressFromPublicKey publicKey = Native.deviceTronAddressFromPublicKey publicKey := by
  refine ⟨Native.deviceKeccak25664_eq size, Native.keccak256_eq publicKey, ?_, ?_, Native.pointToAddress_eq size,
    serverAddress_eq size⟩
  · intro payload length
    exact Native.deviceSha256_eq (by omega)
  · intro digest length
    exact Native.deviceSha256_eq (by omega)

/-- Sixty-four zero bytes. -/
theorem addresses_agree_zeros :
    Native.deviceKeccak25664 (List.replicate 64 0) = Native.keccak256 (List.replicate 64 0) ∧
    Native.keccak256 (List.replicate 64 0) = Keccak.digest (List.replicate 64 0) ∧
    (∀ payload : List UInt8, payload.length = 21 →
      Native.deviceSha256SingleBlock payload = Sha256.digest payload) ∧
    (∀ digest : List UInt8, digest.length = 32 →
      Native.deviceSha256SingleBlock digest = Sha256.digest digest) ∧
    Native.pointToAddress (List.replicate 64 0) =
      .ok (Native.deviceTronAddressFromPublicKey (List.replicate 64 0)) ∧
    tronAddressFromPublicKey (List.replicate 64 0) =
      Native.deviceTronAddressFromPublicKey (List.replicate 64 0) :=
  addresses_agree List.length_replicate

end

end TronForge.Service
