import Nook.IdentityControl.TestSupport
import Nook.Sync.ProviderCredentials
import Nook.Sync.ProviderListKept

set_option autoImplicit false

namespace Nook.Sync

open Nook.Lib Nook.EventLog Nook.Auth Nook.IdentityControl

section

variable [ICloudTargetText]

/-! ### Sealed and opened rows -/

/-- Every credential of the snapshot is in plaintext. -/
def AuthProvidersSnapshot.Unsealed (snapshot : AuthProvidersSnapshot) : Prop :=
  ∀ row ∈ snapshot.providers, ∀ secret ∈ row.provider.secrets,
    ProviderCredentialEncoding.observe secret = .plaintext

variable [Age]

omit [ICloudTargetText] in
/-- Sealed bytes are armored. -/
def Age.Armors : Prop := ∀ key plaintext entropy sealed,
  Age.sealBytes key plaintext entropy = .ok sealed →
    containsText sealed.asStr ageArmorMarker = true

omit [ICloudTargetText] in
/-- The armor of a secret, sealed to a key. -/
structure SealedTo (key : DevicePublicKey) (secret sealed : ProviderSecretText) : Prop where
  made : ∃ draw armored,
    Age.sealBytes key secret.expose draw = .ok armored ∧ sealed.expose = armored.asStr
  armored : ProviderCredentialEncoding.observe sealed = .armorMarked

omit [ICloudTargetText] [Age] in
theorem ProviderCredentialEncoding.observe_armorMarked {secret : ProviderSecretText} :
    observe secret = .armorMarked ↔ containsText secret.expose ageArmorMarker = true := by
  unfold observe
  split <;> simp_all

omit [ICloudTargetText] in
theorem CredentialTransition.apply_sealTo (armors : Age.Armors) {key : DevicePublicKey}
    {draw : Str} {secret sealed : ProviderSecretText}
    (plain : ProviderCredentialEncoding.observe secret = .plaintext)
    (accepted : apply (.sealTo key) draw secret = .ok sealed) : SealedTo key secret sealed := by
  unfold apply at accepted
  rw [plain] at accepted
  obtain ⟨armored, made, parsed⟩ := bind_eq_ok.mp accepted
  have made := mapError_eq_ok.mp made
  have text := ProviderSecretText.expose_of_tryFrom parsed
  refine ⟨⟨draw, armored, made, text⟩, ?_⟩
  rw [ProviderCredentialEncoding.observe_armorMarked, text]
  exact armors _ _ _ _ made

omit [ICloudTargetText] in
theorem CredentialTransition.apply_openBy (opens : Age.Opens) {identity : AppKey} {draw : Str}
    {secret sealed : ProviderSecretText} (same : SealedTo identity.publicKey secret sealed) :
    apply (.openBy identity) draw sealed = .ok secret := by
  obtain ⟨draw', armored, made, text⟩ := same.made
  have marked := ProviderCredentialEncoding.observe_armorMarked.mp same.armored
  have parsed : AgeArmoredCiphertext.parse sealed.expose = .ok armored := by
    unfold AgeArmoredCiphertext.parse
    rw [if_pos marked, text]
  have opened := opens identity.identity secret.expose draw' armored made
  unfold apply
  rw [same.armored]
  refine bind_eq_ok.mpr ⟨armored, mapError_eq_ok.mpr parsed, ?_⟩
  exact bind_eq_ok.mpr ⟨secret.expose, mapError_eq_ok.mpr opened, secret.tryFrom_expose⟩

namespace AuthProvidersSnapshot

theorem transitionCredentials_eq_ok {snapshot done : AuthProvidersSnapshot}
    {transition : CredentialTransition} {draws : SealDraws} :
    snapshot.transitionCredentials transition draws = .ok done ↔
      (snapshot.providers.zipIdx.mapM fun row => row.1.transitionSecrets fun place =>
        transition.apply (draws row.2 place)) = .ok done.providers ∧
      done.activeVaultStoreId = snapshot.activeVaultStoreId := by
  unfold transitionCredentials
  split
  · rename_i providers collected
    rw [collected]
    cases done
    simp [eq_comm]
  · rename_i cause refused
    rw [refused]
    simp

/-- Sealing replaces each secret by its armor for the key, and nothing else. -/
theorem sealCredentialsFor_related (armors : Age.Armors) {snapshot done : AuthProvidersSnapshot}
    (unsealed : snapshot.Unsealed) {key : DevicePublicKey} {draws : SealDraws}
    (accepted : snapshot.sealCredentialsFor key draws = .ok done) :
    List.Forall₂ (RowsRelated (SealedTo key)) snapshot.providers done.providers := by
  have collected := (transitionCredentials_eq_ok.mp accepted).1
  apply forall₂_of_zipIdx _ 0 collected
  intro row listed place row' stepped
  obtain ⟨provider, moved, same⟩ := bind_eq_ok.mp stepped
  rw [← Except.ok.inj same]
  refine ⟨rfl, StoredProvider.transitionSecrets_related ?_ moved⟩
  intro secret held place' sealed made
  exact CredentialTransition.apply_sealTo armors (unsealed row listed secret held) made

/-- The key's identity opens the sealed rows to the rows that were sealed. -/
theorem openCredentials_sealed (opens : Age.Opens) (identity : AppKey)
    {rows sealed : List StorageProvider}
    (same : List.Forall₂ (RowsRelated (SealedTo identity.publicKey)) rows sealed)
    (scope : ActiveVaultScope) :
    (AuthProvidersSnapshot.mk sealed scope).openCredentials identity = .ok ⟨rows, scope⟩ := by
  refine transitionCredentials_eq_ok.mpr ⟨zipIdx_of_forall₂ same ?_ 0, rfl⟩
  intro row row' place pair
  have moved := StoredProvider.transitionSecrets_back
    (fun _ => CredentialTransition.apply (.openBy identity) []) pair.provider
    fun _ _ _ each => CredentialTransition.apply_openBy opens each
  refine bind_eq_ok.mpr ⟨row.provider, moved, ?_⟩
  rw [pair.rest]
  rfl

/-! ### Sharing the remote rows -/

end AuthProvidersSnapshot

/-- The keyring's remote providers, sealed to one other app of the keyring. -/
structure AppProviderShare [ICloudTargetText] where
  appId : AppId
  providers : List StorageProvider

namespace AuthProvidersSnapshot

omit [Age] in
/-- The rows that are not of this browser alone, for no vault. -/
def remote (snapshot : AuthProvidersSnapshot) : AuthProvidersSnapshot :=
  ⟨snapshot.providers.filter (!·.isLocal), .unselected⟩

def shareWith (snapshot : AuthProvidersSnapshot) (draws : Nat → SealDraws)
    (member : IdentityControlMember × Nat) :
    Except ProviderCredentialRejection AppProviderShare := do
  let done ← snapshot.remote.sealCredentialsFor member.1.keys.encryptionPublicKey (draws member.2)
  return ⟨member.1.keys.appId, done.providers⟩

/-- The keyring's remote providers sealed to each member app but `own`. -/
def sharesForKeyringApps (snapshot : AuthProvidersSnapshot) (state : IdentityControlState)
    (own : AppId) (draws : Nat → SealDraws) :
    Except ProviderCredentialRejection (List AppProviderShare) :=
  (state.members.filter (·.keys.appId ≠ own)).zipIdx.mapM (snapshot.shareWith draws)

omit [Age] in
/-- Rows handed over replace the remote rows, and replace them only once. -/
theorem replaceKeyringProviders_remote (recipient snapshot : AuthProvidersSnapshot) :
    recipient.replaceKeyringProviders snapshot.remote.providers =
      { recipient with
        providers := recipient.providers.filter (·.isLocal) ++ snapshot.remote.providers } := by
  simp [replaceKeyringProviders, remote]

omit [Age] in
theorem replaceKeyringProviders_twice (recipient : AuthProvidersSnapshot)
    (incoming : List StorageProvider) :
    (recipient.replaceKeyringProviders incoming).replaceKeyringProviders incoming =
      recipient.replaceKeyringProviders incoming := by
  simp [replaceKeyringProviders, List.filter_append]

/-- What one member of the keyring gets of the sender's rows. -/
structure SharedWith (snapshot : AuthProvidersSnapshot) (member : IdentityControlMember)
    (share : AppProviderShare) : Prop where
  appId : share.appId = member.keys.appId
  sealed : List.Forall₂ (RowsRelated (SealedTo member.keys.encryptionPublicKey))
    snapshot.remote.providers share.providers
  taken : ∀ identity : AppKey, identity.publicKey = member.keys.encryptionPublicKey →
    ∀ scope : ActiveVaultScope, ∃ opened,
      (AuthProvidersSnapshot.mk share.providers scope).openCredentials identity = .ok opened ∧
        ∀ recipient : AuthProvidersSnapshot,
          recipient.replaceKeyringProviders opened.providers = { recipient with
            providers := recipient.providers.filter (·.isLocal) ++ snapshot.remote.providers } ∧
          (recipient.replaceKeyringProviders opened.providers).replaceKeyringProviders
              opened.providers = recipient.replaceKeyringProviders opened.providers

omit [Age] in
theorem Unsealed.remote {snapshot : AuthProvidersSnapshot} (unsealed : snapshot.Unsealed) :
    snapshot.remote.Unsealed :=
  fun row listed => unsealed row (List.mem_of_mem_filter listed)

/-- Every other member gets its share, whatever key it joined with. -/
theorem sharesForKeyringApps_shared (armors : Age.Armors) (opens : Age.Opens)
    {snapshot : AuthProvidersSnapshot} (unsealed : snapshot.Unsealed)
    {state : IdentityControlState} {own : AppId} {draws : Nat → SealDraws}
    {shares : List AppProviderShare}
    (shared : snapshot.sharesForKeyringApps state own draws = .ok shares) :
    List.Forall₂ snapshot.SharedWith (state.members.filter (·.keys.appId ≠ own)) shares := by
  apply forall₂_of_zipIdx _ 0 shared
  intro member _ place share made
  obtain ⟨done, accepted, same⟩ := bind_eq_ok.mp made
  have sealed := sealCredentialsFor_related armors unsealed.remote accepted
  rw [← Except.ok.inj same]
  refine ⟨rfl, sealed, ?_⟩
  intro identity named scope
  have opened := openCredentials_sealed opens identity (by rwa [named]) scope
  refine ⟨_, opened, fun recipient => ⟨?_, ?_⟩⟩
  · exact replaceKeyringProviders_remote recipient snapshot
  · exact replaceKeyringProviders_twice recipient _

/-- The shares are those of the other app keys: one each, and none of a recovery passphrase or of
a revoked app. -/
structure SharesReachAppKeys (snapshot : AuthProvidersSnapshot) (state : IdentityControlState)
    (own : AppId) (shares : List AppProviderShare) : Prop where
  each : List.Forall₂ snapshot.SharedWith (state.appMembers.filter (·.keys.appId ≠ own)) shares
  appKey : ∀ share ∈ shares, ∀ member ∈ state.members,
    member.keys.appId = share.appId → member.kind.isRecovery = false
  unrevoked : ∀ share ∈ shares, share.appId ∉ state.revoked

omit [ICloudTargetText] [Age] in
/-- As many app keys as members are all the members. -/
theorem isRecovery_of_length {state : IdentityControlState} {own : AppId}
    (same : (state.appMembers.filter (·.keys.appId ≠ own)).length =
      (state.members.filter (·.keys.appId ≠ own)).length) :
    ∀ member ∈ state.members, member.keys.appId ≠ own → member.kind.isRecovery = false := by
  intro member listed other
  have within : (state.appMembers.filter (·.keys.appId ≠ own)).Sublist
      (state.members.filter (·.keys.appId ≠ own)) :=
    List.filter_sublist.filter _
  have listedThere : member ∈ state.members.filter (·.keys.appId ≠ own) :=
    List.mem_filter.mpr ⟨listed, decide_eq_true other⟩
  rw [← within.eq_of_length same] at listedThere
  have isApp := (List.mem_filter.mp (List.mem_of_mem_filter listedThere)).2
  simpa using isApp

omit [ICloudTargetText] [Age] in
theorem appMembers_of_isRecovery {state : IdentityControlState} (own : AppId)
    (apps : ∀ member ∈ state.members, member.keys.appId ≠ own → member.kind.isRecovery = false) :
    state.appMembers.filter (·.keys.appId ≠ own) =
      state.members.filter (·.keys.appId ≠ own) := by
  unfold IdentityControlState.appMembers
  rw [List.filter_filter]
  apply List.filter_congr
  intro member listed
  by_cases other : member.keys.appId = own
  · simp [other]
  · simp [other, apps member listed other]

/-- The providers reach exactly the other app keys when each other member is one, and is not
listed as revoked. -/
theorem shares_reach_app_keys_iff (armors : Age.Armors) (opens : Age.Opens)
    (snapshot : AuthProvidersSnapshot) (unsealed : snapshot.Unsealed)
    (state : IdentityControlState) (own : AppId) (draws : Nat → SealDraws)
    (shares : List AppProviderShare)
    (shared : snapshot.sharesForKeyringApps state own draws = .ok shares) :
    snapshot.SharesReachAppKeys state own shares ↔
      ∀ member ∈ state.members, member.keys.appId ≠ own →
        member.kind.isRecovery = false ∧ member.keys.appId ∉ state.revoked := by
  have each := sharesForKeyringApps_shared armors opens unsealed shared
  constructor
  · intro reached member listed other
    have same := reached.each.length_eq.trans each.length_eq.symm
    refine ⟨isRecovery_of_length same member listed other, ?_⟩
    have listedThere : member ∈ state.members.filter (·.keys.appId ≠ own) :=
      List.mem_filter.mpr ⟨listed, decide_eq_true other⟩
    obtain ⟨share, given, pair⟩ := exists_right_of_forall₂ each member listedThere
    rw [← pair.appId]
    exact reached.unrevoked share given
  · intro apps
    have same := appMembers_of_isRecovery own
      fun member listed other => (apps member listed other).1
    have named : ∀ share ∈ shares, ∃ member ∈ state.members,
        member.keys.appId ≠ own ∧ share.appId = member.keys.appId := by
      intro share given
      obtain ⟨member, listedThere, pair⟩ := exists_left_of_forall₂ each share given
      have kept := List.mem_filter.mp listedThere
      exact ⟨member, kept.1, of_decide_eq_true kept.2, pair.appId⟩
    refine ⟨by rwa [same], ?_, ?_⟩
    · intro share given member listed addressed
      obtain ⟨_, _, other, recipient⟩ := named share given
      rw [recipient.symm.trans addressed.symm] at other
      exact (apps member listed other).1
    · intro share given
      obtain ⟨member, listed, other, recipient⟩ := named share given
      rw [recipient]
      exact (apps member listed other).2

end AuthProvidersSnapshot

end

namespace TestSupport

open Nook.EventLog.TestSupport Nook.IdentityControl.TestSupport

/-- A sealed text is the recipient's key and the text, behind the marker. -/
@[reducible] def armoringAge : Age where
  toPublic identity := ⟨"age1".toList ++ identity⟩
  appId key := ⟨key.asStr⟩
  authId key := ⟨key.asStr⟩
  sealBytes key plaintext _ := .ok ⟨ageArmorMarker ++ (key.asStr ++ ' ' :: plaintext)⟩
  openIdentityBytes envelope identity :=
    match stripPrefix envelope.asStr (ageArmorMarker ++ ("age1".toList ++ identity ++ [' '])) with
    | some plaintext => .ok plaintext
    | none => .error (.ageCrypto "no matching key")

attribute [local instance] noTargets armoringAge

theorem armors_armoringAge : Age.Armors := by
  intro key plaintext entropy sealed made
  cases made
  exact decide_eq_true (List.prefix_append _ _).isInfix

theorem opens_armoringAge : Age.Opens := by
  intro identity plaintext entropy sealed made
  cases made
  have stripped : stripPrefix
      (ageArmorMarker ++ (("age1".toList ++ identity) ++ ' ' :: plaintext))
      (ageArmorMarker ++ ("age1".toList ++ identity ++ [' '])) = some plaintext :=
    stripPrefix_eq_some.mpr (by simp)
  unfold Age.openIdentityBytes armoringAge
  simp only [stripped]

/-- A keyring of two apps and the members of `kinds`. -/
def keyringOf (kinds : List (Char × IdentityMemberKind)) : IdentityControlState where
  identityId := identityId
  members := kinds.map fun member => ⟨keys member.1, eventId 'g', member.2, .founder⟩
  revoked := []
  pendingJoins := []
  deniedJoins := []
  vaults := []
  removedVaults := []
  mounts := []
  sealedName := []
  heads := []

def twoApps : IdentityControlState := keyringOf [('1', .app .own), ('2', .app .own)]

def withPassphrase : IdentityControlState :=
  keyringOf [('1', .app .own), ('2', .recovery ⟨⟨[]⟩, .standard⟩)]

def savedProviders : AuthProvidersSnapshot := ⟨[rowA, nookRepository], .unselected⟩

theorem unsealed_savedProviders : savedProviders.Unsealed := by
  have all : savedProviders.providers.all (fun row => row.provider.secrets.all fun secret =>
      ProviderCredentialEncoding.observe secret = .plaintext) = true := by
    decide +kernel
  intro row listed secret held
  exact of_decide_eq_true (List.all_eq_true.mp (List.all_eq_true.mp all row listed) secret held)

theorem shares_reach_app_keys_iff_two_apps : ∃ shares,
    savedProviders.sharesForKeyringApps twoApps (keys '1').appId (fun _ _ _ => []) = .ok shares ∧
      savedProviders.SharesReachAppKeys twoApps (keys '1').appId shares := by
  obtain ⟨shares, shared, _⟩ := exists_of_passes
    (savedProviders.sharesForKeyringApps twoApps (keys '1').appId (fun _ _ _ => []))
    (fun _ => true) (by decide +kernel)
  refine ⟨shares, shared, ?_⟩
  apply (AuthProvidersSnapshot.shares_reach_app_keys_iff armors_armoringAge opens_armoringAge
    savedProviders unsealed_savedProviders twoApps (keys '1').appId _ shares shared).mpr
  decide +kernel

/-- A recovery passphrase gets the providers too. -/
theorem recovery_passphrase_gets_share : ¬ ∀ (snapshot : AuthProvidersSnapshot)
    (state : IdentityControlState) (own : AppId) (draws : Nat → AuthProvidersSnapshot.SealDraws)
    (shares : List AppProviderShare), snapshot.Unsealed →
      snapshot.sharesForKeyringApps state own draws = .ok shares →
        ∀ share ∈ shares, ∀ member ∈ state.members,
          member.keys.appId = share.appId → member.kind.isRecovery = false := by
  intro appKeys
  obtain ⟨shares, shared, given⟩ := exists_of_passes
    (savedProviders.sharesForKeyringApps withPassphrase (keys '1').appId (fun _ _ _ => []))
    (fun shares => shares.any fun share => share.appId = (keys '2').appId) (by decide +kernel)
  obtain ⟨share, listed, addressed⟩ := List.any_eq_true.mp given
  have app := appKeys savedProviders withPassphrase (keys '1').appId _ shares
    unsealed_savedProviders shared share listed
    ⟨keys '2', eventId 'g', .recovery ⟨⟨[]⟩, .standard⟩, .founder⟩ (by simp [withPassphrase, keyringOf])
    (of_decide_eq_true addressed).symm
  cases app

end TestSupport

end Nook.Sync
