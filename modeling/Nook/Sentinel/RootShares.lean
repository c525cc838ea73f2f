import Nook.Sentinel.MnemonicCode
import Nook.Sentinel.PolynomialRecovery
import Nook.Sentinel.SecretSharing

set_option autoImplicit false

namespace Nook.Sentinel

open Nook.Auth Nook.EventLog Nook.Lib

/-- A `[u8; SECRET_BYTES]`. -/
abbrev Root := { bytes : List Byte // bytes.length = SECRET_BYTES }

def ITERATION_EXPONENT : Nat := 0

/-- `SentinelParticipantCount::is_supported_quorum`. -/
def isSupportedQuorum (participants : Nat) : Bool := 2 ≤ participants ∧ participants ≤ 16

structure SentinelUnlockPolicy where
  threshold : Nat
  requiredParticipants : Nat
  deriving DecidableEq

def SentinelUnlockPolicy.validate (policy : SentinelUnlockPolicy) : MultiDeviceResult Unit :=
  refuse (!isValidFor policy.threshold policy.requiredParticipants ||
    !isSupportedQuorum policy.requiredParticipants) .invalidSentinelThreshold

theorem SentinelUnlockPolicy.validate_eq_ok {policy : SentinelUnlockPolicy} :
    policy.validate = .ok () ↔ 2 ≤ policy.threshold ∧
      policy.threshold ≤ policy.requiredParticipants ∧ policy.requiredParticipants ≤ 16 := by
  rw [validate, refuse_eq_ok]
  simp only [isValidFor, isSupportedQuorum, Bool.or_eq_false_iff, Bool.not_eq_false',
    decide_eq_true_eq]
  omega

variable [Hashes]

/-! ### Issuance -/

structure SentinelSecretSplitRequest where
  masterSecret : Root
  threshold : Nat
  shareCount : Nat

namespace SentinelSecretSplitRequest

/-- `u16::from_be_bytes(identifier_bytes) & 0x7fff`. -/
def identifierOf (bytes : List Byte) : Nat :=
  (((bytes.getD 0 0).toNat <<< 8) ||| (bytes.getD 1 0).toNat) &&& 0x7fff

def share (threshold identifier : Nat) (raw : RawShare) : Share where
  identifier
  iterationExponent := ITERATION_EXPONENT
  memberIndex := raw.index.toNat
  memberThreshold := threshold
  value := raw.value

def issue (request : SentinelSecretSplitRequest) (entropy : Entropy) :
    MultiDeviceResult (List Str) := do
  SentinelUnlockPolicy.validate
    { threshold := request.threshold, requiredParticipants := request.shareCount }
  let identifier := identifierOf (← RandomBytes.fill entropy 0 2)
  let encrypted := MasterSecretCipher.encrypt
    { passphrase := [], exponent := ITERATION_EXPONENT } request.masterSecret
  let rawShares ← SecretPolynomial.split request.threshold request.shareCount encrypted
    fun call => entropy (call + 1)
  rawShares.mapM fun raw => (share request.threshold identifier raw).encode

end SentinelSecretSplitRequest

/-! ### Recovery -/

structure AdmittedQuorum where
  threshold : Nat
  iterationExponent : Nat
  shares : List RawShare

namespace AdmittedQuorum

/-- The shares decoded from the mnemonics. -/
def admitShares (shares : List Share) : MultiDeviceResult AdmittedQuorum :=
  match shares.head? with
  | none => .error (.notEnoughSentinelShares 2 0)
  | some first =>
    if shares.any fun share => share.identifier ≠ first.identifier ∨
        share.iterationExponent ≠ first.iterationExponent ∨
        share.memberThreshold ≠ first.memberThreshold ∨ share.value.length ≠ SECRET_BYTES then
      .error .invalidSentinelShareEncoding
    else if ¬ (shares.map Share.memberIndex).Nodup then .error .invalidSentinelShareEncoding
    else
      let required := first.memberThreshold
      if shares.length < required then .error (.notEnoughSentinelShares required shares.length)
      else
        .ok {
          threshold := first.memberThreshold
          iterationExponent := first.iterationExponent
          shares := (shares.take required).map fun share =>
            { index := BitVec.ofNat 8 share.memberIndex, value := share.value } }

def admitMnemonics (mnemonics : List Str) : MultiDeviceResult AdmittedQuorum := do
  admitShares (← mnemonics.mapM Share.decode)

def recover (quorum : AdmittedQuorum) (passphrase : List Byte) : MultiDeviceResult Root := do
  let encrypted ← SecretPolynomial.recover quorum.threshold quorum.shares
  let decrypted ← MasterSecretCipher.decrypt
    { passphrase, exponent := quorum.iterationExponent } encrypted
  if size : decrypted.length = SECRET_BYTES then .ok ⟨decrypted, size⟩
  else .error .invalidSentinelShareEncoding

end AdmittedQuorum

structure SentinelSecretRecoveryRequest where
  mnemonics : List Str
  passphrase : List Byte

namespace SentinelSecretRecoveryRequest

def sentinel (mnemonics : List Str) : SentinelSecretRecoveryRequest where
  mnemonics
  passphrase := []

def validatePassphrase (passphrase : List Byte) : MultiDeviceResult Unit :=
  refuse (!(passphrase.all (fun byte => 32 ≤ byte.toNat ∧ byte.toNat ≤ 126) || passphrase.isEmpty))
    .invalidSentinelShareEncoding

/-- A quorum of one is refused before the shares are admitted. -/
def checkThreshold (mnemonics : List Str) : MultiDeviceResult Unit :=
  match mnemonics.head? with
  | none => .ok ()
  | some first => do
    let share ← Share.decode first
    refuse (share.memberThreshold < 2) .invalidSentinelThreshold

def recover (request : SentinelSecretRecoveryRequest) : MultiDeviceResult Root := do
  validatePassphrase request.passphrase
  checkThreshold request.mnemonics
  (← AdmittedQuorum.admitMnemonics request.mnemonics).recover request.passphrase

end SentinelSecretRecoveryRequest

end Nook.Sentinel
