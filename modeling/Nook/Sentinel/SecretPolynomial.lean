import Nook.Lib.Steps
import Nook.Sentinel.FieldElement

set_option autoImplicit false

namespace Nook.Sentinel

open Nook.Auth Nook.Lib

/-- The hash functions, by position of the output byte. -/
class Hashes where
  pbkdf2Hmac : (password salt : List Byte) → (iterations length : Nat) → Nat → Byte
  hmac : (key message : List Byte) → Nat → Byte

structure RawShare where
  index : Byte
  value : List Byte
  deriving DecidableEq

def DIGEST_BYTES : Nat := 4
def DIGEST_INDEX : Byte := 254
def SECRET_INDEX : Byte := 255

namespace SecretPolynomial

/-- The basis with the factor of another share, for the share with the given index. -/
def multiplyFactor (target index : Byte) (basis : Byte) (other : RawShare) :
    MultiDeviceResult Byte :=
  if other.index ≠ index then do
    let factor ← FieldElement.divide (target ^^^ other.index) (index ^^^ other.index)
    pure (FieldElement.multiply basis factor)
  else pure basis

/-- The value at `target` of the basis polynomial of the share with the given index. -/
def basis (shares : List RawShare) (target index : Byte) : MultiDeviceResult Byte :=
  shares.foldlM (multiplyFactor target index) 1

/-- `result.iter_mut().zip(&share.value)`. -/
def addScaled (basis : Byte) : (result value : List Byte) → List Byte
  | output :: result, byte :: value =>
    (output ^^^ FieldElement.multiply byte basis) :: addScaled basis result value
  | result, _ => result

/-- The result so far with the share weighted by its basis. -/
def addShare (shares : List RawShare) (target : Byte) (result : List Byte) (share : RawShare) :
    MultiDeviceResult (List Byte) := do
  let basis ← basis shares target share.index
  pure (addScaled basis result share.value)

def interpolate (shares : List RawShare) (target : Byte) : MultiDeviceResult (List Byte) :=
  match shares.head? with
  | none => .error .invalidSentinelShareEncoding
  | some first =>
    let length := first.value.length
    if ¬ (shares.map RawShare.index).Nodup ∨ shares.any fun share => share.value.length ≠ length then
      .error .invalidSentinelShareEncoding
    else match shares.find? fun share => share.index = target with
    | some share => .ok share.value
    | none => shares.foldlM (addShare shares target) (List.replicate length 0)

variable [Hashes]

/-- `ShareDigest::compute`. -/
def shareDigest (randomPart secret : List Byte) : List Byte :=
  (List.range DIGEST_BYTES).map (Hashes.hmac randomPart secret)

def split (threshold shareCount : Nat) (secret : List Byte) (entropy : Entropy) :
    MultiDeviceResult (List RawShare) :=
  if threshold = 0 ∨ threshold > shareCount ∨ shareCount > 16 ∨ secret.length < 16 ∨
      secret.length % 2 ≠ 0 then
    .error .invalidSentinelShareEncoding
  else if threshold = 1 then
    .ok ((List.range shareCount).map fun index =>
      { index := BitVec.ofNat 8 index, value := secret })
  else do
    let randomShareCount := threshold - 2
    let shares ← (List.range randomShareCount).mapM fun index => do
      let value ← RandomBytes.fill entropy index secret.length
      pure { index := BitVec.ofNat 8 index, value }
    let randomPart ← RandomBytes.fill entropy randomShareCount (secret.length - DIGEST_BYTES)
    let digestShare := shareDigest randomPart secret ++ randomPart
    let basePoints := shares ++ [{ index := DIGEST_INDEX, value := digestShare },
      { index := SECRET_INDEX, value := secret }]
    let derived ← (List.range' randomShareCount (shareCount - randomShareCount)).mapM fun index => do
      let value ← interpolate basePoints (BitVec.ofNat 8 index)
      pure { index := BitVec.ofNat 8 index, value }
    pure (shares ++ derived)

def recover (threshold : Nat) (shares : List RawShare) : MultiDeviceResult (List Byte) :=
  if threshold = 0 ∨ shares.length < threshold then
    .error (.notEnoughSentinelShares threshold shares.length)
  else if threshold = 1 then
    match shares.head? with
    | none => .error .invalidSentinelShareEncoding
    | some share => .ok share.value
  else do
    let secret ← interpolate shares SECRET_INDEX
    let digestShare ← interpolate shares DIGEST_INDEX
    if digestShare.length < DIGEST_BYTES then .error .invalidSentinelShareEncoding
    else if digestShare.take DIGEST_BYTES ≠ shareDigest (digestShare.drop DIGEST_BYTES) secret then
      .error .invalidSentinelShareEncoding
    else pure secret

end SecretPolynomial

/-! ### `MasterSecretCipher` -/

def ROUND_COUNT : Nat := 4
def ROUND_ITERATIONS : Nat := 2500
def SECRET_BYTES : Nat := 32

structure MasterSecretCipher where
  passphrase : List Byte
  exponent : Nat

namespace MasterSecretCipher

variable [Hashes]

def xor (left right : List Byte) : List Byte := List.zipWith (· ^^^ ·) left right

/-- The identifier is not part of the salt of an extendable backup. -/
def round (cipher : MasterSecretCipher) (round : Nat) (right : List Byte) : List Byte :=
  let password := BitVec.ofNat 8 round :: cipher.passphrase
  let iterations := ROUND_ITERATIONS <<< cipher.exponent
  (List.range right.length).map (Hashes.pbkdf2Hmac password right iterations right.length)

/-- One round on the left and the right half. -/
def feistelStep (cipher : MasterSecretCipher) (halves : List Byte × List Byte) (round : Nat) :
    List Byte × List Byte :=
  (halves.2, xor halves.1 (cipher.round round halves.2))

def splitHalves (input : List Byte) : List Byte × List Byte := input.splitAt (input.length / 2)

def feistel (cipher : MasterSecretCipher) (input : List Byte) (rounds : List Nat) : List Byte :=
  let halves := rounds.foldl cipher.feistelStep (splitHalves input)
  halves.2 ++ halves.1

def encrypt (cipher : MasterSecretCipher) (secret : List Byte) : List Byte :=
  cipher.feistel secret (List.range ROUND_COUNT)

def decrypt (cipher : MasterSecretCipher) (encrypted : List Byte) : MultiDeviceResult (List Byte) :=
  if encrypted.length ≠ SECRET_BYTES ∨ encrypted.length % 2 ≠ 0 then
    .error .invalidSentinelShareEncoding
  else .ok (cipher.feistel encrypted (List.range ROUND_COUNT).reverse)

end MasterSecretCipher

end Nook.Sentinel
