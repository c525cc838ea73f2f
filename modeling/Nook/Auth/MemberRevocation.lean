import Nook.Auth.MemberRoster
import Nook.Lib.Steps

set_option autoImplicit false

namespace Nook.Auth

open Nook.Lib Nook.EventLog

/-- What is encrypted under a key is opened by it, and is armored text, which is no JSON. -/
structure VaultCrypto.Sealing [VaultCrypto] [JsonText] : Prop where
  opens : ∀ key plaintext entropy armored,
    VaultCrypto.encryptValue key plaintext entropy = .ok armored →
      VaultCrypto.decryptValue key armored = .ok plaintext
  armored : ∀ key plaintext entropy armored,
    VaultCrypto.encryptValue key plaintext entropy = .ok armored →
      containsText armored.asStr ageArmorMarker = true
  notJson : ∀ key plaintext entropy armored,
    VaultCrypto.encryptValue key plaintext entropy = .ok armored →
      JsonText.parse armored.asStr = none

variable [AgeRecipients] [Age] [JsonText] [VaultCrypto]

/-- A member as it is read from a roster row. -/
structure VaultMember.Resolved (member : VaultMember) : Prop where
  authId : AuthKeyId.parse member.authId.asStr = .ok member.authId
  publicKey : DevicePublicKey.parse? member.publicKey.asStr = some member.publicKey
  deviceId : DevicePublicKey.tryAppId member.publicKey = .ok member.deviceId

def VaultMetaRecord.isMember : VaultMetaRecord → Bool
  | .member .. => true
  | _ => false

variable {membersKey : SymmetricKey} {record : StoredSecretRecord} {member : VaultMember}

omit [Age] [JsonText] [VaultCrypto] in
theorem MemberEntry.parsed_of_ofJson {json : Json} {entry : MemberEntry}
    (read : MemberEntry.ofJson json = some entry) :
    AuthKeyId.parse entry.pkId.asStr = .ok entry.pkId ∧
      DevicePublicKey.parse? entry.pk.asStr = some entry.pk := by
  unfold MemberEntry.ofJson at read
  split at read
  · obtain ⟨rawId, _, read⟩ := Option.bind_eq_some_iff.mp read
    obtain ⟨pkId, readId, read⟩ := Option.bind_eq_some_iff.mp read
    obtain ⟨rawKey, _, read⟩ := Option.bind_eq_some_iff.mp read
    obtain ⟨pk, readKey, read⟩ := Option.bind_eq_some_iff.mp read
    obtain ⟨_, _, read⟩ := Option.bind_eq_some_iff.mp read
    obtain ⟨_, _, read⟩ := Option.bind_eq_some_iff.mp read
    cases read
    exact ⟨AuthKeyId.parse_asStr (toOption_eq_some.mp readId),
      DevicePublicKey.parse?_asStr readKey⟩
  · cases read

omit [JsonText] [VaultCrypto] in
theorem MemberEntry.ofJson_toJson (resolved : member.Resolved) :
    MemberEntry.ofJson (MemberEntry.ofMember member).toJson = some (MemberEntry.ofMember member) := by
  have label : MemberEntry.labelField (MemberEntry.labelJson member.label) =
      some member.label := by
    cases member.label <;> rfl
  have enrolled : MemberEntry.enrolledField (MemberEntry.enrolledJson member.enrolledAt) =
      some member.enrolledAt := by
    cases member.enrolledAt <;> rfl
  unfold MemberEntry.ofJson MemberEntry.toJson
  rw [Json.fieldValues_struct (by simp)]
  simp [MemberEntry.fields, List.lookup, textField, MemberEntry.ofMember, resolved.authId,
    resolved.publicKey, label, enrolled, Except.toOption]

omit [JsonText] [VaultCrypto] in
theorem VaultMember.ofEntry_ofMember (resolved : member.Resolved) :
    VaultMember.ofEntry (MemberEntry.ofMember member) = .ok member := by
  unfold VaultMember.ofEntry MemberEntry.ofMember
  rw [resolved.deviceId]
  rfl

omit [AgeRecipients] [Age] [JsonText] [VaultCrypto] in
theorem memberRecordKeyMatches_iff {authId : AuthKeyId} {key : Str}
    (parsed : AuthKeyId.parse authId.asStr = .ok authId) :
    memberRecordKeyMatches authId key = true ↔ key = memberRecordKey authId := by
  unfold memberRecordKeyMatches
  rw [parsed]
  simp

omit [AgeRecipients] [Age] [JsonText] [VaultCrypto] in
theorem memberRecordKey_injective : Function.Injective memberRecordKey := by
  intro left right same
  exact Text.asStr_injective (List.append_cancel_left same)

omit [Age] [VaultCrypto] in
theorem classify_eq_member {authId : AuthKeyId} {payload : StoredRecordPayload}
    (classified : classify record = .ok (.member authId payload)) :
    payload = record.value ∧ memberRowId record = some authId := by
  rcases classify_cases classified with ⟨_, _, _, _, _, _, same⟩ | ⟨_, ⟨_, _, same⟩ |
    ⟨_, ⟨own, named, same⟩ | ⟨_, ⟨_, _, _, same⟩ | ⟨_, _, same⟩⟩⟩⟩
  · cases same
  · cases same
  · cases same
    exact ⟨rfl, named⟩
  · cases same
  · cases same

/-- What a roster row holds, and where it stands. -/
theorem resolveMember_eq_some (found : resolveMember membersKey record = .ok (some member)) :
    classify record = .ok (.member member.authId record.value) ∧
      record.key.asStr = memberRecordKey member.authId ∧ member.Resolved := by
  obtain ⟨row, classified, found⟩ := bind_eq_ok.mp found
  cases row with
  | member rowId payload =>
    obtain ⟨ciphertext, _, found⟩ := bind_eq_ok.mp found
    obtain ⟨entry, decrypted, found⟩ := bind_eq_ok.mp found
    split at found
    · cases found
    · rename_i matching
      obtain ⟨own, made, same⟩ := bind_eq_ok.mp found
      cases same
      obtain ⟨deviceId, derived, made⟩ := bind_eq_ok.mp made
      cases made
      obtain ⟨json, _, read⟩ := bind_eq_ok.mp decrypted
      have entryRead : (JsonText.parse json).bind MemberEntry.ofJson = some entry := by
        cases parsed : (JsonText.parse json).bind MemberEntry.ofJson with
        | none => simp [parsed] at read
        | some other =>
          simp only [parsed, Except.ok.injEq] at read
          rw [read]
      obtain ⟨value, _, ofJson⟩ := Option.bind_eq_some_iff.mp entryRead
      obtain ⟨parsedId, parsedKey⟩ := MemberEntry.parsed_of_ofJson ofJson
      have key : record.key.asStr = memberRecordKey entry.pkId := by
        rw [← memberRecordKeyMatches_iff parsedId]
        simpa using matching
      obtain ⟨rfl, named⟩ := classify_eq_member classified
      obtain ⟨raw, written, _, parsed⟩ := memberRowId_eq_some.mp named
      have spelled : entry.pkId.asStr = raw := List.append_cancel_left (key.symm.trans written)
      rw [← spelled, parsedId] at parsed
      cases parsed
      exact ⟨classified, key, ⟨parsedId, parsedKey, derived⟩⟩
  | _ => cases found

theorem resolveMember_eq_none (found : resolveMember membersKey record = .ok none) :
    ∃ row, classify record = .ok row ∧ row.isMember = false := by
  obtain ⟨row, classified, found⟩ := bind_eq_ok.mp found
  refine ⟨row, classified, ?_⟩
  cases row with
  | member rowId payload =>
    obtain ⟨ciphertext, _, found⟩ := bind_eq_ok.mp found
    obtain ⟨entry, decrypted, found⟩ := bind_eq_ok.mp found
    split at found
    · cases found
    · obtain ⟨own, made, same⟩ := bind_eq_ok.mp found
      cases same
  | _ => rfl

theorem resolveMember_of_other {row : VaultMetaRecord} (classified : classify record = .ok row)
    (other : row.isMember = false) : resolveMember membersKey record = .ok none := by
  unfold resolveMember
  rw [classified]
  cases row <;> first | rfl | cases other

/-- The row built of a member is its roster row and holds it. -/
theorem resolveMember_built (sealing : VaultCrypto.Sealing) (resolved : member.Resolved)
    (readsBack : (MemberEntry.ofMember member).toJson.ReadsBack) {entropy : Nat → Str} {index : Nat}
    (built : buildMemberRecord membersKey entropy (member, index) = .ok record) :
    record.key.asStr = memberRecordKey member.authId ∧
      resolveMember membersKey record = .ok (some member) := by
  obtain ⟨ciphertext, encrypted, built⟩ := bind_eq_ok.mp built
  cases built
  refine ⟨rfl, ?_⟩
  have armored := sealing.armored _ _ _ _ encrypted
  have unread : ∀ request, JoinRequest.parseJson ciphertext.asStr ≠ .ok request := by
    intro request read
    have joined := JoinRequest.parseJson_eq_ok.mp read
    rw [sealing.notJson _ _ _ _ encrypted] at joined
    cases joined
  have letters : some 'm' ≠ some 's' := by decide
  have classified : classify ⟨⟨memberRecordKey member.authId⟩, .undeclared, ⟨ciphertext.asStr⟩⟩ =
      .ok (.member member.authId ⟨ciphertext.asStr⟩) :=
    classify_member (stripPrefix_eq_none letters (by decide)) unread
      (memberRowId_eq_some.mpr ⟨member.authId.asStr, rfl, armored, resolved.authId⟩)
  have parsed : AgeArmoredCiphertext.parse ciphertext.asStr = .ok ciphertext :=
    AgeArmoredCiphertext.parse_eq_ok.mpr ⟨rfl, armored⟩
  have decrypted : MemberEntry.decryptMemberEntry ciphertext membersKey =
      .ok (MemberEntry.ofMember member) := by
    have read : (JsonText.parse (JsonText.print (MemberEntry.ofMember member).toJson)).bind
        MemberEntry.ofJson = some (MemberEntry.ofMember member) := by
      rw [readsBack.parse_print, Option.bind_some, MemberEntry.ofJson_toJson resolved]
    unfold MemberEntry.decryptMemberEntry
    rw [sealing.opens _ _ _ _ encrypted]
    simp only [bind, Except.bind, read]
  have matching : memberRecordKeyMatches (MemberEntry.ofMember member).pkId
      (memberRecordKey member.authId) = true :=
    (memberRecordKeyMatches_iff resolved.authId).mpr rfl
  change resolveMember membersKey
    ⟨⟨memberRecordKey member.authId⟩, .undeclared, ⟨ciphertext.asStr⟩⟩ = _
  unfold resolveMember
  rw [classified]
  show (AgeArmoredCiphertext.parse ciphertext.asStr >>= _) = _
  rw [parsed]
  show (MemberEntry.decryptMemberEntry ciphertext membersKey >>= _) = _
  rw [decrypted]
  show (if (!memberRecordKeyMatches (MemberEntry.ofMember member).pkId
    (memberRecordKey member.authId)) = true then _ else _) = _
  rw [if_neg (by simp [matching]), VaultMember.ofEntry_ofMember resolved]
  rfl

/-! ### The roster of the rows -/

variable {records updated : List StoredSecretRecord} {roster : List VaultMember}

theorem resolveMemberRoster_eq_ok :
    resolveMemberRoster records membersKey = .ok roster ↔
      ∃ found, records.mapM (resolveMember membersKey) = .ok found ∧
        (found.reduceOption.mergeSort fun a b => decide (a.authId ≤ b.authId)) = roster := by
  unfold resolveMemberRoster
  constructor
  · intro resolved
    obtain ⟨found, collected, same⟩ := bind_eq_ok.mp resolved
    exact ⟨found, collected, Except.ok.inj same⟩
  · rintro ⟨found, collected, rfl⟩
    exact bind_eq_ok.mpr ⟨found, collected, rfl⟩

/-- A member of the roster is held by a row. -/
theorem row_of_mem_roster (resolves : resolveMemberRoster records membersKey = .ok roster)
    (listed : member ∈ roster) :
    ∃ record ∈ records, resolveMember membersKey record = .ok (some member) := by
  obtain ⟨found, collected, rfl⟩ := resolveMemberRoster_eq_ok.mp resolves
  have held : some member ∈ found :=
    List.reduceOption_mem_iff.mp ((List.mergeSort_perm _ _).mem_iff.mp listed)
  exact (mem_of_mapM_eq_ok collected).mp held

/-- A roster row holds a member of the roster. -/
theorem mem_roster_of_row (resolves : resolveMemberRoster records membersKey = .ok roster)
    (inside : record ∈ records) {row : VaultMetaRecord} (classified : classify record = .ok row)
    (isMember : row.isMember = true) :
    ∃ member ∈ roster, resolveMember membersKey record = .ok (some member) := by
  obtain ⟨found, collected, rfl⟩ := resolveMemberRoster_eq_ok.mp resolves
  obtain ⟨held, listed, resolved⟩ := mapM_step collected inside
  cases held with
  | some member =>
    have kept : member ∈ found.reduceOption := List.reduceOption_mem_iff.mpr listed
    exact ⟨member, (List.mergeSort_perm _ _).mem_iff.mpr kept, resolved⟩
  | none =>
    obtain ⟨own, again, other⟩ := resolveMember_eq_none resolved
    rw [classified] at again
    cases again
    rw [isMember] at other
    cases other

theorem classify_of_resolves (resolves : resolveMemberRoster records membersKey = .ok roster)
    (inside : record ∈ records) : ∃ row, classify record = .ok row := by
  obtain ⟨found, collected, rfl⟩ := resolveMemberRoster_eq_ok.mp resolves
  obtain ⟨held, _, resolved⟩ := mapM_step collected inside
  obtain ⟨row, classified, _⟩ := bind_eq_ok.mp resolved
  exact ⟨row, classified⟩

/-- Each member of the roster has a row of its own. -/
theorem memberKeys_sublist {found : List (Option VaultMember)}
    (collected : records.mapM (resolveMember membersKey) = .ok found) :
    (found.reduceOption.map fun member => memberRecordKey member.authId).Sublist
      (records.map fun record => record.key.asStr) := by
  induction records generalizing found with
  | nil =>
    cases collected
    exact List.Sublist.refl _
  | cons head tail ih =>
    rw [List.mapM_cons] at collected
    obtain ⟨first, headOk, collected⟩ := bind_eq_ok.mp collected
    obtain ⟨others, tailOk, same⟩ := bind_eq_ok.mp collected
    cases same
    have rest := ih tailOk
    cases first with
    | none => exact rest.cons _
    | some member =>
      have own := (resolveMember_eq_some headOk).2.1
      rw [List.reduceOption_cons_of_some, List.map_cons, List.map_cons, own]
      exact rest.cons_cons _

theorem nodup_roster (distinct : (records.map fun record => record.key.asStr).Nodup)
    (resolves : resolveMemberRoster records membersKey = .ok roster) :
    (roster.map (·.authId)).Nodup := by
  obtain ⟨found, collected, rfl⟩ := resolveMemberRoster_eq_ok.mp resolves
  have keys := distinct.sublist (memberKeys_sublist collected)
  have ids : (found.reduceOption.map (·.authId)).Nodup := by
    refine List.Nodup.of_map memberRecordKey ?_
    rwa [List.map_map]
  exact (((List.mergeSort_perm _ _).map _).nodup_iff).mpr ids

theorem sorted_roster (resolves : resolveMemberRoster records membersKey = .ok roster) :
    roster.Pairwise fun a b => decide (a.authId ≤ b.authId) = true := by
  obtain ⟨found, collected, rfl⟩ := resolveMemberRoster_eq_ok.mp resolves
  apply List.pairwise_mergeSort
  · intro a b c first second
    simp only [decide_eq_true_eq] at first second ⊢
    exact le_trans first second
  · intro a b
    simpa using le_total a.authId b.authId

/-! ### What is left after the revocation -/

/-- Whether a row belongs to a device, by the roster. -/
def VaultMetaRecord.BelongsTo (roster : List VaultMember) (device : DeviceId) :
    VaultMetaRecord → Prop
  | .auth authId _ | .member authId _ =>
    ∃ member ∈ roster, member.authId = authId ∧ member.deviceId = device
  | .join deviceId _ | .sentinelShare deviceId _ => deviceId = device
  | .secret .. => False

/-- Whether a row gives its device access. -/
def VaultMetaRecord.givesAccess : VaultMetaRecord → Bool
  | .auth .. | .member .. | .sentinelShare .. => true
  | .join .. | .secret .. => false

omit [Age] [VaultCrypto] in
theorem keepOther_eq_ok {kept : Option StoredSecretRecord} :
    keepOther record = .ok kept ↔
      ∃ row, classify record = .ok row ∧
        kept = if row.isMember = true then none else some record := by
  unfold keepOther
  constructor
  · intro found
    obtain ⟨row, classified, found⟩ := bind_eq_ok.mp found
    refine ⟨row, classified, ?_⟩
    cases row <;> exact (Except.ok.inj found).symm
  · rintro ⟨row, classified, rfl⟩
    refine bind_eq_ok.mpr ⟨row, classified, ?_⟩
    cases row <;> rfl

/-- A revocation that goes through: whom it removes, and the rows it leaves. -/
theorem revokeVaultMember_eq_ok {authId : AuthKeyId} {entropy : Nat → Str}
    (resolves : resolveMemberRoster records membersKey = .ok roster)
    (revokes : revokeVaultMember records membersKey authId entropy = .ok updated) :
    AuthKeyId.isValid authId.asStr = true ∧ 2 ≤ roster.length ∧
      ∃ revoked ∈ roster, revoked.authId = authId ∧
        ∃ memberRecords kept,
          buildMembersRecords (roster.filter (·.authId ≠ authId)) membersKey entropy =
            .ok memberRecords ∧
          (withoutKeys records authId revoked.deviceId).mapM keepOther = .ok kept ∧
          updated = kept.reduceOption ++ memberRecords := by
  unfold revokeVaultMember at revokes
  split at revokes
  · cases revokes
  · rename_i valid
    rw [resolves] at revokes
    change (if roster.length ≤ 1 then _ else _) = _ at revokes
    split at revokes
    · cases revokes
    · rename_i several
      split at revokes
      · cases revokes
      · rename_i revoked found
        obtain ⟨memberRecords, built, revokes⟩ := bind_eq_ok.mp revokes
        obtain ⟨kept, collected, same⟩ := bind_eq_ok.mp revokes
        have named : revoked.authId = authId := by simpa using List.find?_some found
        exact ⟨by simpa using valid, by omega, revoked, List.mem_of_find?_eq_some found, named,
          memberRecords, kept, built, collected, (Except.ok.inj same).symm⟩

end Nook.Auth
