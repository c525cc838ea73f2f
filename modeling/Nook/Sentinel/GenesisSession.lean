import Nook.Auth.MemberRoster
import Nook.Lib.Steps
import Nook.Sentinel.RootShares

set_option autoImplicit false

namespace Nook.Sentinel

open Nook.Auth Nook.EventLog Nook.Lib

/-! ### Keys, policies and signatures -/

structure SigningKey where
  seed : Str

/-- Ed25519 over text, with keys and signatures as hexadecimal text, and SHA-256. -/
class Signing where
  fromSigningKey : SigningKey → DeviceSigningPublicKey
  sign : SigningKey → Str → Str
  verifySignature : DeviceSigningPublicKey → (signature bytes : Str) → Bool
  sha256Hex : Str → Str

/-- A key checks what it signed, and every key has a public key. -/
structure Signing.Correct [Signing] : Prop where
  present (key : SigningKey) : (fromSigningKey key).isEmpty = false
  verifies (key : SigningKey) (bytes : Str) :
    verifySignature (fromSigningKey key) (sign key bytes) bytes = true

def GENESIS_VERSION : UInt32 := 1

structure SentinelGenesisPolicy where
  participantCount : UInt8
  threshold : UInt8
  deriving DecidableEq

def SentinelGenesisPolicy.validate (policy : SentinelGenesisPolicy) : MultiDeviceResult Unit :=
  refuse (policy.threshold < 2 ∨ policy.participantCount < 2 ∨ policy.participantCount > 16 ∨
    policy.threshold > policy.participantCount) .invalidSentinelThreshold

def SentinelGenesisPolicy.toJson (policy : SentinelGenesisPolicy) : Json :=
  .struct [("participantCount", some (.natural policy.participantCount.toNat)),
    ("threshold", some (.natural policy.threshold.toNat))]

structure SentinelGenesisRequest where
  version : UInt32
  sessionId : Str
  policy : SentinelGenesisPolicy
  initiatorDeviceId : DeviceId
  initiatorSigningPublicKey : DeviceSigningPublicKey
  signature : Str
  deriving DecidableEq

structure SentinelGenesisParticipant where
  deviceId : DeviceId
  encryptionPublicKey : DevicePublicKey
  signingPublicKey : DeviceSigningPublicKey
  label : Str
  fingerprint : Str
  deriving DecidableEq

structure SentinelGenesisParticipantResponse where
  version : UInt32
  sessionId : Str
  participant : SentinelGenesisParticipant
  signature : Str
  deriving DecidableEq

/-- The device, the signing key and the label of one participant. -/
structure SentinelGenesisResponder where
  identity : AppKey
  signingKey : SigningKey
  label : Str

def SentinelGenesisResponder.validateLabel (responder : SentinelGenesisResponder) :
    MultiDeviceResult Unit :=
  refuse (responder.label.length > 80) .deviceNameTooLong

section

variable [Signing]

def GenesisSignature.verify (publicKey : DeviceSigningPublicKey) (signature bytes : Str) :
    MultiDeviceResult Unit :=
  refuse (!Signing.verifySignature publicKey signature bytes) .invalidSentinelGenesisSignature

/-- The digest that binds a participant's keys to a session. -/
def ParticipantKeys.inSession (encryption : DevicePublicKey) (signing : DeviceSigningPublicKey)
    (sessionId : Str) : Str :=
  Signing.sha256Hex ("nook-sentinel-genesis-participant-v1\x00".toList ++ sessionId ++
    "\x00".toList ++ encryption.asStr ++ "\x00".toList ++ signing.asStr)

variable [JsonText]

namespace SentinelGenesisRequest

def signingBytes (request : SentinelGenesisRequest) : Str :=
  JsonText.print (.array [.natural request.version.toNat, .text request.sessionId,
    request.policy.toJson, .text request.initiatorDeviceId.asStr,
    .text request.initiatorSigningPublicKey.asStr])

def validate (request : SentinelGenesisRequest) : MultiDeviceResult Unit := do
  request.policy.validate
  if request.version ≠ GENESIS_VERSION ∨ request.initiatorSigningPublicKey.isEmpty then
    .error .invalidSentinelGenesisSession
  else
    GenesisSignature.verify request.initiatorSigningPublicKey request.signature
      request.signingBytes

end SentinelGenesisRequest

namespace SentinelGenesisParticipant

def toJson (participant : SentinelGenesisParticipant) : Json :=
  .struct [("deviceId", some (.text participant.deviceId.asStr)),
    ("encryptionPublicKey", some (.text participant.encryptionPublicKey.asStr)),
    ("signingPublicKey", some (.text participant.signingPublicKey.asStr)),
    ("label", some (.text participant.label)),
    ("fingerprint", some (.text participant.fingerprint))]

def responseSigningBytes (participant : SentinelGenesisParticipant) (version : UInt32)
    (sessionId : Str) : Str :=
  JsonText.print (.array [.natural version.toNat, .text sessionId, participant.toJson])

variable [AgeRecipients] [Age]

def validateFor (participant : SentinelGenesisParticipant) (sessionId : Str) :
    MultiDeviceResult Unit := do
  let appId ← DevicePublicKey.tryAppId participant.encryptionPublicKey
  refuse (appId ≠ participant.deviceId ∨ participant.signingPublicKey.isEmpty ∨
    participant.fingerprint ≠ ParticipantKeys.inSession participant.encryptionPublicKey
      participant.signingPublicKey sessionId) .invalidSentinelGenesisPayload

end SentinelGenesisParticipant

namespace SentinelGenesisParticipantResponse

def verifySignature (response : SentinelGenesisParticipantResponse) : MultiDeviceResult Unit :=
  GenesisSignature.verify response.participant.signingPublicKey response.signature
    (response.participant.responseSigningBytes response.version response.sessionId)

end SentinelGenesisParticipantResponse

/-- A response of one device to a request. -/
def SentinelGenesisRequest.respond [Age] (request : SentinelGenesisRequest)
    (responder : SentinelGenesisResponder) :
    MultiDeviceResult SentinelGenesisParticipantResponse := do
  request.validate
  responder.validateLabel
  let encryption := responder.identity.publicKey
  let signing := Signing.fromSigningKey responder.signingKey
  let participant : SentinelGenesisParticipant := {
    deviceId := responder.identity.appId
    encryptionPublicKey := encryption
    signingPublicKey := signing
    label := responder.label
    fingerprint := ParticipantKeys.inSession encryption signing request.sessionId }
  return {
    version := GENESIS_VERSION
    sessionId := request.sessionId
    participant
    signature := Signing.sign responder.signingKey
      (participant.responseSigningBytes GENESIS_VERSION request.sessionId) }

/-! ### Responses as text -/

inductive SentinelPayloadClassification where
  | publicKeyAnnouncement
  | participantResponseCandidate

/-- The kind a payload declares: it may be left out, or be `null`. -/
def SentinelPayloadHeader.classification (json : Json) : Option SentinelPayloadClassification :=
  match json.fieldValues ["kind"] with
  | some [none] | some [some .null] => some .participantResponseCandidate
  | some [some (.text kind)] =>
    if kind = "publicKeyAnnouncement".toList then some .publicKeyAnnouncement
    else some .participantResponseCandidate
  | _ => none

def sessionIdField (json : Option Json) : Option Str := do
  (CompactToken.parse (← textField json)).toOption

def versionField (json : Option Json) : Option UInt32 := do
  let value ← naturalField (2 ^ 32) json
  if value = 1 then some GENESIS_VERSION else none

def signingKeyField (json : Option Json) : Option DeviceSigningPublicKey := do
  DeviceSigningPublicKey.parse? (← textField json)

variable [AgeRecipients]

def SentinelGenesisParticipant.ofJson (json : Json) : Option SentinelGenesisParticipant :=
  match json.fieldValues
      ["deviceId", "encryptionPublicKey", "signingPublicKey", "label", "fingerprint"] with
  | some [deviceId, encryptionPublicKey, signingPublicKey, label, fingerprint] => do
    return {
      deviceId := ← (AppId.parse (← textField deviceId)).toOption
      encryptionPublicKey := ← DevicePublicKey.parse? (← textField encryptionPublicKey)
      signingPublicKey := ← signingKeyField signingPublicKey
      label := ← textField label
      fingerprint := ← textField fingerprint }
  | _ => none

def SentinelGenesisParticipantResponse.ofJson (json : Json) :
    Option SentinelGenesisParticipantResponse :=
  match json.fieldValues ["version", "sessionId", "participant", "signature"] with
  | some [version, sessionId, participant, signature] => do
    return {
      version := ← versionField version
      sessionId := ← sessionIdField sessionId
      participant := ← participant.bind SentinelGenesisParticipant.ofJson
      signature := ← textField signature }
  | _ => none

end

/-! ### The session -/

structure SentinelGenesisSession where
  request : SentinelGenesisRequest
  participants : List SentinelGenesisParticipant

inductive SentinelGenesisReadiness where
  | collecting
  | complete
  deriving DecidableEq

/-- A refused call hands its session back. -/
structure SentinelGenesisRejection where
  session : SentinelGenesisSession
  error : MultiDeviceError

/-- A session with all its participants, and the key that issues. -/
structure ReadySentinelGenesis where
  session : SentinelGenesisSession
  signingKey : SigningKey

namespace SentinelGenesisSession

def readiness (session : SentinelGenesisSession) : SentinelGenesisReadiness :=
  if session.participants.length = session.request.policy.participantCount.toNat then .complete
  else .collecting

def validateRosterAdmission (session : SentinelGenesisSession)
    (participant : SentinelGenesisParticipant) : MultiDeviceResult Unit :=
  if session.participants.any fun existing => existing.deviceId = participant.deviceId ∨
      existing.encryptionPublicKey = participant.encryptionPublicKey ∨
      existing.signingPublicKey = participant.signingPublicKey then
    .error (.duplicateSentinelGenesisParticipant participant.deviceId.asStr)
  else if session.participants.length ≥ session.request.policy.participantCount.toNat then
    .error .sentinelGenesisRosterFull
  else .ok ()

variable [Signing] [JsonText]

def validateIssuer (session : SentinelGenesisSession) (signingKey : SigningKey) :
    MultiDeviceResult Unit :=
  refuse (Signing.fromSigningKey signingKey ≠ session.request.initiatorSigningPublicKey ∨
    !session.participants.any fun participant =>
      participant.deviceId = session.request.initiatorDeviceId ∧
        participant.signingPublicKey = session.request.initiatorSigningPublicKey)
    .invalidSentinelGenesisSignature

def validateIssuance (session : SentinelGenesisSession) (signingKey : SigningKey) :
    MultiDeviceResult Unit :=
  match session.readiness with
  | .collecting =>
    if session.participants.length < 256 then
      .error (.sentinelGenesisIncomplete session.request.policy.participantCount.toNat
        session.participants.length)
    else .error .sentinelParticipantCountOverflow
  | .complete => do
    session.validateIssuer signingKey
    session.request.validate

def prepare (session : SentinelGenesisSession) (signingKey : SigningKey) :
    Except SentinelGenesisRejection ReadySentinelGenesis :=
  match session.validateIssuance signingKey with
  | .ok _ => .ok ⟨session, signingKey⟩
  | .error error => .error ⟨session, error⟩

variable [AgeRecipients] [Age]

def validateResponse (session : SentinelGenesisSession)
    (response : SentinelGenesisParticipantResponse) : MultiDeviceResult Unit := do
  session.request.validate
  if response.version ≠ GENESIS_VERSION ∨ response.sessionId ≠ session.request.sessionId then
    .error .invalidSentinelGenesisSession
  else do
    response.participant.validateFor response.sessionId
    response.verifySignature
    session.validateRosterAdmission response.participant

def collect (session : SentinelGenesisSession) (response : SentinelGenesisParticipantResponse) :
    Except SentinelGenesisRejection SentinelGenesisSession :=
  match session.validateResponse response with
  | .ok _ => .ok { session with participants := session.participants ++ [response.participant] }
  | .error error => .error ⟨session, error⟩

omit [Signing] [Age] in
def responseFromPayload (payload : Str) : MultiDeviceResult SentinelGenesisParticipantResponse :=
  match (JsonText.parse payload).bind SentinelPayloadHeader.classification with
  | none => .error .invalidSentinelGenesisPayload
  | some .publicKeyAnnouncement => .error .standaloneSentinelGenesisAnnouncementRejected
  | some .participantResponseCandidate =>
    match (JsonText.parse payload).bind SentinelGenesisParticipantResponse.ofJson with
    | some response => .ok response
    | none => .error .invalidSentinelGenesisPayload

/-- The last participant under the owner's label. -/
def relabelLast (session : SentinelGenesisSession) (label : Str) :
    Except SentinelGenesisRejection SentinelGenesisSession :=
  match session.participants.getLast? with
  | none => .error ⟨session, .invalidSentinelGenesisSession⟩
  | some participant =>
    .ok { session with
      participants := session.participants.dropLast ++ [{ participant with label }] }

/-- Signed keys are verified before the owner's label is applied. -/
def collectPayload (session : SentinelGenesisSession) (payload label : Str) :
    Except SentinelGenesisRejection SentinelGenesisSession :=
  let label := trim label
  if label.length > 80 then .error ⟨session, .deviceNameTooLong⟩
  else
    match responseFromPayload payload with
    | .error error => .error ⟨session, error⟩
    | .ok response => do
      let next ← session.collect response
      if label.isEmpty then return next else next.relabelLast label

/-- A new session of one device, which answers its own request first. -/
def start (identity : AppKey) (signingKey : SigningKey) (participantCount threshold : UInt8)
    (label : Str) (generated : MultiDeviceResult Str) : MultiDeviceResult SentinelGenesisSession := do
  let policy : SentinelGenesisPolicy := ⟨participantCount, threshold⟩
  policy.validate
  let sessionId ← generated
  let unsigned : SentinelGenesisRequest := {
    version := GENESIS_VERSION
    sessionId
    policy
    initiatorDeviceId := identity.appId
    initiatorSigningPublicKey := Signing.fromSigningKey signingKey
    signature := [] }
  let request := { unsigned with signature := Signing.sign signingKey unsigned.signingBytes }
  let response ← request.respond ⟨identity, signingKey, label⟩
  match collect ⟨request, []⟩ response with
  | .ok session => .ok session
  | .error rejected => .error rejected.error

end SentinelGenesisSession

/-! ### Runs of a session -/

/-- A call of the owner, with whatever a device has answered. -/
inductive SentinelGenesisCall where
  | collect (response : SentinelGenesisParticipantResponse)
  | collectPayload (payload label : Str)

namespace SentinelGenesisSession

variable [Signing] [JsonText] [AgeRecipients] [Age]

def answer (session : SentinelGenesisSession) :
    SentinelGenesisCall → Except SentinelGenesisRejection SentinelGenesisSession
  | .collect response => session.collect response
  | .collectPayload payload label => session.collectPayload payload label

/-- The session the owner holds after a call. -/
def afterCall (session : SentinelGenesisSession) (call : SentinelGenesisCall) :
    SentinelGenesisSession :=
  match session.answer call with
  | .ok next => next
  | .error rejected => rejected.session

def run (session : SentinelGenesisSession) (calls : List SentinelGenesisCall) :
    SentinelGenesisSession :=
  calls.foldl afterCall session

/-- A participant answered the challenge of a session, up to the owner's label for it. -/
def Answered (request : SentinelGenesisRequest) (participant : SentinelGenesisParticipant) : Prop :=
  ∃ response : SentinelGenesisParticipantResponse, response.version = GENESIS_VERSION ∧
    response.sessionId = request.sessionId ∧
    response.participant.validateFor request.sessionId = .ok () ∧
    response.verifySignature = .ok () ∧
    participant = { response.participant with label := participant.label }

/-- The participants are apart in each of the three values, have answered, and are not too
many. -/
structure Admitted (session : SentinelGenesisSession) : Prop where
  deviceIds : (session.participants.map SentinelGenesisParticipant.deviceId).Nodup
  encryptionKeys : (session.participants.map SentinelGenesisParticipant.encryptionPublicKey).Nodup
  signingKeys : (session.participants.map SentinelGenesisParticipant.signingPublicKey).Nodup
  answered : ∀ participant ∈ session.participants, Answered session.request participant
  bounded : session.participants.length ≤ session.request.policy.participantCount.toNat

/-- The first participant is the device whose key signed the request. -/
def LedByInitiator (session : SentinelGenesisSession) : Prop :=
  ∃ first, session.participants.head? = some first ∧
    first.deviceId = session.request.initiatorDeviceId ∧
    first.signingPublicKey = session.request.initiatorSigningPublicKey

variable {session next : SentinelGenesisSession} {response : SentinelGenesisParticipantResponse}

omit [Signing] [JsonText] [AgeRecipients] [Age] in
theorem validateRosterAdmission_eq_ok {participant : SentinelGenesisParticipant} :
    session.validateRosterAdmission participant = .ok () ↔
      (∀ existing ∈ session.participants, existing.deviceId ≠ participant.deviceId ∧
        existing.encryptionPublicKey ≠ participant.encryptionPublicKey ∧
        existing.signingPublicKey ≠ participant.signingPublicKey) ∧
      session.participants.length < session.request.policy.participantCount.toNat := by
  unfold validateRosterAdmission
  by_cases known : session.participants.any (fun existing =>
      existing.deviceId = participant.deviceId ∨
        existing.encryptionPublicKey = participant.encryptionPublicKey ∨
        existing.signingPublicKey = participant.signingPublicKey) = true
  · rw [if_pos known]
    simp only [List.any_eq_true, decide_eq_true_eq] at known
    obtain ⟨existing, member, same⟩ := known
    simp only [reduceCtorEq, false_iff]
    intro fresh
    have apart := fresh.1 existing member
    tauto
  · rw [if_neg known]
    simp only [List.any_eq_true, decide_eq_true_eq] at known
    have apart : ∀ existing ∈ session.participants, existing.deviceId ≠ participant.deviceId ∧
        existing.encryptionPublicKey ≠ participant.encryptionPublicKey ∧
        existing.signingPublicKey ≠ participant.signingPublicKey := by
      intro existing member
      have own : ¬ (existing.deviceId = participant.deviceId ∨
          existing.encryptionPublicKey = participant.encryptionPublicKey ∨
          existing.signingPublicKey = participant.signingPublicKey) :=
        fun same => known ⟨existing, member, same⟩
      tauto
    by_cases full : session.participants.length ≥ session.request.policy.participantCount.toNat
    · rw [if_pos full]
      simp only [reduceCtorEq, false_iff]
      intro fresh
      have room := fresh.2
      omega
    · rw [if_neg full]
      simp only [true_iff]
      exact ⟨apart, by omega⟩

/-- The answers a session takes. -/
theorem validateResponse_eq_ok : session.validateResponse response = .ok () ↔
    session.request.validate = .ok () ∧ response.version = GENESIS_VERSION ∧
      response.sessionId = session.request.sessionId ∧
      response.participant.validateFor response.sessionId = .ok () ∧
      response.verifySignature = .ok () ∧
      session.validateRosterAdmission response.participant = .ok () := by
  unfold validateResponse
  by_cases other : response.version ≠ GENESIS_VERSION ∨
      response.sessionId ≠ session.request.sessionId
  · simp only [other, if_true]
    constructor
    · intro taken
      obtain ⟨_, _, taken⟩ := bind_eq_ok.mp taken
      cases taken
    · intro taken
      have version := taken.2.1
      have sessionId := taken.2.2.1
      tauto
  · simp only [other, if_false]
    have version : response.version = GENESIS_VERSION := by tauto
    have sessionId : response.sessionId = session.request.sessionId := by tauto
    constructor
    · intro taken
      obtain ⟨_, valid, taken⟩ := bind_eq_ok.mp taken
      obtain ⟨_, bound, taken⟩ := bind_eq_ok.mp taken
      obtain ⟨_, signed, admitted⟩ := bind_eq_ok.mp taken
      exact ⟨valid, version, sessionId, bound, signed, admitted⟩
    · intro taken
      obtain ⟨valid, _, _, bound, signed, admitted⟩ := taken
      exact bind_eq_ok.mpr ⟨(), valid, bind_eq_ok.mpr ⟨(), bound,
        bind_eq_ok.mpr ⟨(), signed, admitted⟩⟩⟩

theorem collect_eq_ok : session.collect response = .ok next ↔
    session.validateResponse response = .ok () ∧
      next = { session with participants := session.participants ++ [response.participant] } := by
  unfold collect
  cases taken : session.validateResponse response with
  | ok _ => simp [eq_comm]
  | error cause => simp

theorem collect_eq_error {rejected : SentinelGenesisRejection}
    (refused : session.collect response = .error rejected) : rejected.session = session := by
  unfold collect at refused
  cases taken : session.validateResponse response with
  | ok _ =>
    rw [taken] at refused
    cases refused
  | error cause =>
    rw [taken] at refused
    cases refused
    rfl

theorem admitted_nil (request : SentinelGenesisRequest) : Admitted ⟨request, []⟩ :=
  ⟨List.nodup_nil, List.nodup_nil, List.nodup_nil, by simp, Nat.zero_le _⟩

theorem Admitted.collect (admitted : session.Admitted)
    (taken : session.collect response = .ok next) : next.Admitted := by
  obtain ⟨valid, same⟩ := collect_eq_ok.mp taken
  obtain ⟨_, version, sessionId, bound, signed, fresh⟩ := validateResponse_eq_ok.mp valid
  obtain ⟨apart, room⟩ := validateRosterAdmission_eq_ok.mp fresh
  rw [same]
  have extended : ∀ {α : Type} (value : SentinelGenesisParticipant → α),
      (session.participants.map value).Nodup →
        (∀ existing ∈ session.participants, value existing ≠ value response.participant) →
          ((session.participants ++ [response.participant]).map value).Nodup := by
    intro α value distinct differs
    rw [List.map_append, List.map_singleton]
    refine List.nodup_append.mpr ⟨distinct, List.nodup_singleton _, ?_⟩
    intro own member other last
    obtain ⟨existing, listed, rfl⟩ := List.mem_map.mp member
    rw [List.mem_singleton.mp last]
    exact differs existing listed
  constructor
  · exact extended _ admitted.deviceIds fun existing member => (apart existing member).1
  · exact extended _ admitted.encryptionKeys fun existing member => (apart existing member).2.1
  · exact extended _ admitted.signingKeys fun existing member => (apart existing member).2.2
  · intro participant member
    rcases List.mem_append.mp member with earlier | last
    · exact admitted.answered participant earlier
    · rw [List.mem_singleton.mp last]
      exact ⟨response, version, sessionId, sessionId ▸ bound, signed, rfl⟩
  · simp only [List.length_append, List.length_singleton]
    omega

omit [Signing] [JsonText] [AgeRecipients] [Age] in
/-- The participants of a session, with another label for the last one. -/
theorem relabelLast_eq_ok {label : Str} {participants : List SentinelGenesisParticipant}
    {last : SentinelGenesisParticipant} (ends : session.participants = participants ++ [last]) :
    session.relabelLast label =
      .ok { session with participants := participants ++ [{ last with label }] } := by
  unfold relabelLast
  rw [ends, List.getLast?_append_of_ne_nil _ (by simp)]
  simp

/-- A label does not touch what the participants are told apart by. -/
theorem Admitted.relabelled (label : Str) {participants : List SentinelGenesisParticipant}
    {last : SentinelGenesisParticipant} (ends : session.participants = participants ++ [last])
    (admitted : session.Admitted) :
    Admitted { session with participants := participants ++ [{ last with label }] } := by
  obtain ⟨deviceIds, encryptionKeys, signingKeys, answered, bounded⟩ := admitted
  rw [ends] at deviceIds encryptionKeys signingKeys answered bounded
  refine ⟨?_, ?_, ?_, ?_, ?_⟩
  · simpa only [List.map_append, List.map_singleton] using deviceIds
  · simpa only [List.map_append, List.map_singleton] using encryptionKeys
  · simpa only [List.map_append, List.map_singleton] using signingKeys
  · intro participant member
    rcases List.mem_append.mp member with earlier | own
    · exact answered participant (List.mem_append_left _ earlier)
    · rw [List.mem_singleton.mp own]
      obtain ⟨response, version, sessionId, bound, signed, same⟩ := answered last (by simp)
      exact ⟨response, version, sessionId, bound, signed, by rw [same]⟩
  · simpa only [List.length_append, List.length_singleton] using bounded

/-! ### What a call does -/

/-- The sessions that a taken call leads to: one more participant, perhaps under another
label. -/
theorem collectPayload_eq_ok {payload label : Str}
    (taken : session.collectPayload payload label = .ok next) :
    ∃ response collected, session.collect response = .ok collected ∧
      (next = collected ∨ next = { session with
        participants := session.participants ++
          [{ response.participant with label := trim label }] }) := by
  unfold collectPayload at taken
  simp only at taken
  split at taken
  · cases taken
  · split at taken
    · cases taken
    · rename_i response _
      obtain ⟨collected, collects, taken⟩ := bind_eq_ok.mp taken
      refine ⟨response, collected, collects, ?_⟩
      split at taken
      · cases taken
        exact .inl rfl
      · have own := (collect_eq_ok.mp collects).2
        have ends : collected.participants = session.participants ++ [response.participant] := by
          rw [own]
        rw [relabelLast_eq_ok ends] at taken
        cases taken
        exact .inr (by rw [own])

/-- A refused call gives the session back as it was: relabelling never refuses, since there is
a last participant by then. -/
theorem answer_eq_error {call : SentinelGenesisCall} {rejected : SentinelGenesisRejection}
    (refused : session.answer call = .error rejected) : rejected.session = session := by
  cases call with
  | collect response => exact collect_eq_error refused
  | collectPayload payload label =>
    unfold answer collectPayload at refused
    simp only at refused
    split at refused
    · cases refused
      rfl
    · split at refused
      · cases refused
        rfl
      · rename_i response _
        cases collects : session.collect response with
        | error rejection =>
          rw [collects] at refused
          cases refused
          exact collect_eq_error collects
        | ok collected =>
          rw [collects] at refused
          simp only [bind, Except.bind] at refused
          have own := (collect_eq_ok.mp collects).2
          have ends : collected.participants = session.participants ++ [response.participant] := by
            rw [own]
          rw [relabelLast_eq_ok ends] at refused
          split at refused
          · cases refused
          · cases refused

omit [AgeRecipients] [Age] in
theorem prepare_eq_error {signingKey : SigningKey} {rejected : SentinelGenesisRejection}
    (refused : session.prepare signingKey = .error rejected) : rejected.session = session := by
  unfold prepare at refused
  split at refused
  · cases refused
  · cases refused
    rfl

/-- What holds of a session and is kept by every call. -/
structure Sound (request : SentinelGenesisRequest) (session : SentinelGenesisSession) : Prop where
  request : session.request = request
  admitted : session.Admitted
  led : session.LedByInitiator

theorem Sound.collect {request : SentinelGenesisRequest} (sound : Sound request session)
    (taken : session.collect response = .ok next) : Sound request next := by
  have own := (collect_eq_ok.mp taken).2
  obtain ⟨first, head, device, key⟩ := sound.led
  refine ⟨by rw [own, sound.request], sound.admitted.collect taken, first, ?_, ?_, ?_⟩
  · rw [own]
    simp [head]
  · rw [own, device]
  · rw [own, key]

theorem Sound.afterCall {request : SentinelGenesisRequest} (sound : Sound request session)
    (call : SentinelGenesisCall) : Sound request (session.afterCall call) := by
  unfold SentinelGenesisSession.afterCall
  cases answered : session.answer call with
  | error rejected =>
    dsimp only
    rw [answer_eq_error answered]
    exact sound
  | ok next =>
    cases call with
    | collect response => exact sound.collect answered
    | collectPayload payload label =>
      obtain ⟨response, collected, collects, same⟩ := collectPayload_eq_ok answered
      have kept := sound.collect collects
      rcases same with same | same
      · rw [same]
        exact kept
      · have own := (collect_eq_ok.mp collects).2
        have ends : collected.participants = session.participants ++ [response.participant] := by
          rw [own]
        have relabelled := kept.admitted.relabelled (trim label) ends
        obtain ⟨first, head, device, key⟩ := sound.led
        rw [own] at relabelled
        rw [same]
        refine ⟨sound.request, relabelled, first, ?_, device, key⟩
        simp [head]

/-- The first session holds its own initiator and nobody else. -/
theorem sound_of_start {identity : AppKey} {signingKey : SigningKey}
    {participantCount threshold : UInt8} {label : Str} {generated : MultiDeviceResult Str}
    (started : start identity signingKey participantCount threshold label generated =
      .ok session) :
    Sound session.request session ∧ session.request.policy = ⟨participantCount, threshold⟩ := by
  unfold start at started
  obtain ⟨_, _, started⟩ := bind_eq_ok.mp started
  obtain ⟨sessionId, _, started⟩ := bind_eq_ok.mp started
  obtain ⟨response, responded, started⟩ := bind_eq_ok.mp started
  split at started
  · rename_i collected collects
    cases started
    have own := (collect_eq_ok.mp collects).2
    unfold SentinelGenesisRequest.respond at responded
    obtain ⟨_, _, responded⟩ := bind_eq_ok.mp responded
    obtain ⟨_, _, responded⟩ := bind_eq_ok.mp responded
    cases responded
    refine ⟨⟨rfl, (admitted_nil _).collect collects, ?_⟩, by rw [own]⟩
    rw [own]
    exact ⟨_, rfl, rfl, rfl⟩
  · cases started

theorem Sound.run {request : SentinelGenesisRequest} (sound : Sound request session)
    (calls : List SentinelGenesisCall) : Sound request (session.run calls) := by
  induction calls generalizing session with
  | nil => exact sound
  | cons call calls ih => exact ih (sound.afterCall call)

omit [AgeRecipients] [Age] in
/-- A session is prepared only with all its participants, and for the key of its request. -/
theorem prepare_eq_ok {signingKey : SigningKey} {ready : ReadySentinelGenesis}
    (prepared : session.prepare signingKey = .ok ready) :
    ready = ⟨session, signingKey⟩ ∧
      session.participants.length = session.request.policy.participantCount.toNat ∧
      Signing.fromSigningKey signingKey = session.request.initiatorSigningPublicKey ∧
      session.request.validate = .ok () := by
  unfold prepare at prepared
  split at prepared
  · rename_i valid
    cases prepared
    unfold validateIssuance readiness at valid
    by_cases complete :
        session.participants.length = session.request.policy.participantCount.toNat
    · simp only [complete, if_true] at valid
      obtain ⟨_, issuer, validated⟩ := bind_eq_ok.mp valid
      unfold validateIssuer at issuer
      rw [refuse_eq_ok] at issuer
      simp only [ne_eq, Bool.decide_or, Bool.or_eq_false_iff, decide_eq_false_iff_not,
        not_not] at issuer
      exact ⟨rfl, complete, issuer.1, validated⟩
    · simp only [complete, if_false] at valid
      split at valid
      · cases valid
      · cases valid
  · cases prepared

end SentinelGenesisSession

end Nook.Sentinel
