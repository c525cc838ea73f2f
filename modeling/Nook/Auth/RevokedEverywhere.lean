import Nook.Auth.MemberRevocation

set_option autoImplicit false

namespace Nook.Auth

open Nook.Lib Nook.EventLog

section

variable [AgeRecipients] [Age] [JsonText] [VaultCrypto]

section

variable {membersKey : SymmetricKey} {records updated memberRecords : List StoredSecretRecord}
  {kept : List (Option StoredSecretRecord)} {roster : List VaultMember} {authId : AuthKeyId}
  {record : StoredSecretRecord} {device : DeviceId}

omit [Age] [VaultCrypto] in
/-- The rows kept beside the roster are no roster rows, and they stay as they are. -/
theorem mem_keptRows (collected : records.mapM keepOther = .ok kept) :
    record ∈ kept.reduceOption ↔
      record ∈ records ∧ ∃ row, classify record = .ok row ∧ row.isMember = false := by
  rw [List.reduceOption_mem_iff, mem_of_mapM_eq_ok collected]
  constructor
  · rintro ⟨own, inside, found⟩
    obtain ⟨row, classified, same⟩ := keepOther_eq_ok.mp found
    by_cases isMember : row.isMember = true
    · simp [isMember] at same
    · rw [if_neg isMember] at same
      cases same
      exact ⟨inside, row, classified, by simpa using isMember⟩
  · rintro ⟨inside, row, classified, other⟩
    exact ⟨record, inside, keepOther_eq_ok.mpr ⟨row, classified, by simp [other]⟩⟩

omit [AgeRecipients] [Age] [JsonText] [VaultCrypto] in
theorem mem_withoutKeys : record ∈ withoutKeys records authId device ↔
    record ∈ records ∧ record.key.asStr ≠ authId.asStr ∧
      record.key.asStr ≠ memberRecordKey authId ∧
      record.key.asStr ≠ sentinelShareRecordKey device := by
  unfold withoutKeys
  rw [List.mem_filter, decide_eq_true_iff]

/-- The members that are built are read back from their rows. -/
theorem resolve_builtRecords (sealing : VaultCrypto.Sealing) {entropy : Nat → Str}
    (resolved : ∀ member ∈ roster, member.Resolved)
    (readsBack : ∀ member ∈ roster, (MemberEntry.ofMember member).toJson.ReadsBack)
    (built : buildMembersRecords roster membersKey entropy = .ok memberRecords) :
    memberRecords.mapM (resolveMember membersKey) = .ok (roster.map some) := by
  have each : ∀ entry ∈ roster.zipIdx, ∀ row, buildMemberRecord membersKey entropy entry = .ok row →
      resolveMember membersKey row = .ok (some entry.1) := by
    rintro ⟨member, index⟩ listed row made
    have inside : member ∈ roster := List.fst_mem_of_mem_zipIdx listed
    exact (resolveMember_built sealing (resolved member inside) (readsBack member inside) made).2
  have positions : roster.zipIdx.map (fun entry => some entry.1) = roster.map some := by
    have firsts := congrArg (List.map some) (List.zipIdx_map_fst 0 roster)
    rwa [List.map_map] at firsts
  rw [← positions]
  exact mapM_mapM_eq_ok each built

/-- The roster of the rows that are left is what it was built of. -/
theorem resolve_updated {found : List VaultMember} (collected : records.mapM keepOther = .ok kept)
    (resolves : memberRecords.mapM (resolveMember membersKey) = .ok (found.map some))
    (sorted : found.Pairwise fun a b => decide (a.authId ≤ b.authId) = true) :
    resolveMemberRoster (kept.reduceOption ++ memberRecords) membersKey = .ok found := by
  have others : kept.reduceOption.mapM (resolveMember membersKey) =
      .ok (kept.reduceOption.map fun _ => none) := by
    apply mapM_eq_ok_map
    intro record inside
    obtain ⟨_, row, classified, other⟩ := (mem_keptRows collected).mp inside
    exact resolveMember_of_other classified other
  refine resolveMemberRoster_eq_ok.mpr ⟨_, mapM_append_eq_ok others resolves, ?_⟩
  have nothing : (kept.reduceOption.map fun _ => (none : Option VaultMember)).reduceOption = [] := by
    simp [List.reduceOption]
  have members : (found.map some).reduceOption = found := by
    simp [List.reduceOption]
  rw [List.reduceOption_append, nothing, members, List.nil_append]
  exact List.mergeSort_of_pairwise sorted

/-- A built row stands under the key of its member. -/
theorem mem_builtRecords (sealing : VaultCrypto.Sealing) {entropy : Nat → Str}
    (resolved : ∀ member ∈ roster, member.Resolved)
    (readsBack : ∀ member ∈ roster, (MemberEntry.ofMember member).toJson.ReadsBack)
    (built : buildMembersRecords roster membersKey entropy = .ok memberRecords)
    (inside : record ∈ memberRecords) :
    ∃ member ∈ roster, record.key.asStr = memberRecordKey member.authId ∧
      classify record = .ok (.member member.authId record.value) := by
  obtain ⟨⟨member, index⟩, listed, made⟩ := (mem_of_mapM_eq_ok built).mp inside
  have own : member ∈ roster := List.fst_mem_of_mem_zipIdx listed
  have row := resolveMember_built sealing (resolved member own) (readsBack member own) made
  exact ⟨member, own, row.1, (resolveMember_eq_some row.2).1⟩

theorem resolved_of_roster (resolves : resolveMemberRoster records membersKey = .ok roster) :
    ∀ member ∈ roster, member.Resolved := by
  intro member listed
  obtain ⟨row, _, resolved⟩ := row_of_mem_roster resolves listed
  exact (resolveMember_eq_some resolved).2.2

/-! ### Where the rows of a device stand -/

omit [Age] [VaultCrypto] in
theorem key_of_auth {rowId : AuthKeyId} {envelopes : AuthEnvelopes}
    (classified : classify record = .ok (.auth rowId envelopes)) :
    record.key.asStr = rowId.asStr := by
  rcases classify_cases classified with ⟨_, _, _, _, _, _, same⟩ | ⟨_, ⟨_, _, same⟩ |
    ⟨_, ⟨_, _, same⟩ | ⟨_, ⟨_, _, found, same⟩ | ⟨_, _, same⟩⟩⟩⟩
  · cases same
  · cases same
  · cases same
  · cases same
    obtain ⟨valid, parsed, _⟩ := authRow_eq_some.mp found
    exact (AuthKeyId.trim_of_isValid valid).symm.trans (AuthKeyId.parse_eq_ok.mp parsed).1
  · cases same

omit [Age] [VaultCrypto] in
theorem key_of_share {share : SentinelShareEnvelope}
    (classified : classify record = .ok (.sentinelShare device share)) :
    ∃ raw, record.key.asStr = sentinelShareRecordPrefix ++ raw ∧ AppId.parse raw = .ok device := by
  rcases classify_cases classified with ⟨raw, _, _, written, parsed, _, same⟩ | ⟨_, ⟨_, _, same⟩ |
    ⟨_, ⟨_, _, same⟩ | ⟨_, ⟨_, _, _, same⟩ | ⟨_, _, same⟩⟩⟩⟩
  · cases same
    exact ⟨raw, written, parsed⟩
  all_goals cases same

omit [Age] [VaultCrypto] in
/-- What is stored under the share key of a device is a share of it. -/
theorem classify_shareKey {row : VaultMetaRecord} (canonical : AppId.parse device.asStr = .ok device)
    (written : record.key.asStr = sentinelShareRecordKey device)
    (classified : classify record = .ok row) : ∃ share, row = .sentinelShare device share := by
  rcases classify_cases classified with ⟨raw, _, share, own, parsed, _, same⟩ | ⟨unshared, _⟩
  · have spelled : raw = device.asStr := List.append_cancel_left (own.symm.trans written)
    rw [spelled, canonical] at parsed
    cases parsed
    exact ⟨share, same⟩
  · rw [stripPrefix_eq_some.mpr written] at unshared
    cases unshared

end

/-! ### Revocation -/

section

variable (membersKey : SymmetricKey) (records updated : List StoredSecretRecord)
  (roster : List VaultMember) (authId : AuthKeyId) (device : DeviceId)

/-- The device is removed everywhere, and nothing else is. -/
structure RevokedEverywhere : Prop where
  resolves : resolveMemberRoster updated membersKey = .ok (roster.filter (·.deviceId ≠ device))
  remaining : roster.filter (·.deviceId ≠ device) ≠ []
  gone : ∀ record ∈ updated, ∀ row, classify record = .ok row → row.givesAccess = true →
    ¬ row.BelongsTo roster device
  unchanged : ∀ record ∈ records, ∀ row, classify record = .ok row → row.isMember = false →
    ¬ row.BelongsTo roster device → record ∈ updated

/-- The rows of the device are under its own keys, no foreign row is under its auth id,
and no other member of the roster is the same device. -/
structure RevokesCleanly : Prop where
  shares : ∀ record ∈ records, ∀ share, classify record = .ok (.sentinelShare device share) →
    record.key.asStr = sentinelShareRecordKey device
  ownRow : ∀ record ∈ records, record.key.asStr = authId.asStr →
    ∀ row, classify record = .ok row → row.BelongsTo roster device
  oneMember : ∀ member ∈ roster, member.deviceId = device → member.authId = authId

variable {membersKey records updated roster authId device}

omit [AgeRecipients] [Age] [JsonText] [VaultCrypto] in
/-- Members are told apart by their auth ids. -/
theorem eq_of_authId (distinct : (roster.map (·.authId)).Nodup) {first second : VaultMember}
    (listed : first ∈ roster) (listed' : second ∈ roster) (same : first.authId = second.authId) :
    first = second :=
  List.inj_on_of_nodup_map distinct listed listed' same

omit [AgeRecipients] [Age] [JsonText] [VaultCrypto] in
theorem filter_authId_ne_nil (distinct : (roster.map (·.authId)).Nodup)
    (several : 2 ≤ roster.length) : roster.filter (·.authId ≠ authId) ≠ [] := by
  match roster, several with
  | first :: second :: rest, _ =>
    intro empty
    have none := List.filter_eq_nil_iff.mp empty
    have same : first.authId = second.authId := by
      have left := none first (by simp)
      have right := none second (by simp)
      simp only [ne_eq, decide_not, Bool.not_eq_true', decide_eq_false_iff_not, not_not] at left right
      rw [left, right]
    have apart := (List.nodup_cons.mp distinct).1
    exact apart (by simp [same])

variable {entropy : Nat → Str} {memberRecords : List StoredSecretRecord}
  {kept : List (Option StoredSecretRecord)} {revoked : VaultMember} {record : StoredSecretRecord}
  {row : VaultMetaRecord}

variable (membersKey records roster entropy memberRecords kept revoked) in
/-- The rows of a revocation that goes through. -/
structure RevocationRows : Prop where
  valid : AuthKeyId.isValid revoked.authId.asStr = true
  several : 2 ≤ roster.length
  distinct : (records.map fun record => record.key.asStr).Nodup
  resolves : resolveMemberRoster records membersKey = .ok roster
  readsBack : ∀ member ∈ roster, (MemberEntry.ofMember member).toJson.ReadsBack
  listed : revoked ∈ roster
  built : buildMembersRecords (roster.filter (·.authId ≠ revoked.authId)) membersKey entropy =
    .ok memberRecords
  collected : (withoutKeys records revoked.authId revoked.deviceId).mapM keepOther = .ok kept

namespace RevocationRows

variable (rows : RevocationRows membersKey records roster entropy memberRecords kept revoked)
include rows

/-- A row stands after the revocation if it is kept or built. -/
theorem mem_kept : record ∈ kept.reduceOption ↔
    (record ∈ records ∧ record.key.asStr ≠ revoked.authId.asStr ∧
      record.key.asStr ≠ memberRecordKey revoked.authId ∧
      record.key.asStr ≠ sentinelShareRecordKey revoked.deviceId) ∧
    ∃ row, classify record = .ok row ∧ row.isMember = false := by
  rw [mem_keptRows rows.collected, mem_withoutKeys]

theorem mem_built (sealing : VaultCrypto.Sealing) (inside : record ∈ memberRecords) :
    ∃ member ∈ roster, member.authId ≠ revoked.authId ∧
      record.key.asStr = memberRecordKey member.authId ∧
      classify record = .ok (.member member.authId record.value) := by
  have resolved := resolved_of_roster rows.resolves
  obtain ⟨member, remains, key, classified⟩ := mem_builtRecords sealing
    (fun member remains => resolved member (List.mem_of_mem_filter remains))
    (fun member remains => rows.readsBack member (List.mem_of_mem_filter remains))
    rows.built inside
  exact ⟨member, List.mem_of_mem_filter remains, by simpa using List.of_mem_filter remains, key,
    classified⟩

theorem built_of_mem (sealing : VaultCrypto.Sealing) {member : VaultMember}
    (listed : member ∈ roster) (other : member.authId ≠ revoked.authId) :
    ∃ record ∈ memberRecords, classify record = .ok (.member member.authId record.value) := by
  have remains : member ∈ roster.filter (·.authId ≠ revoked.authId) :=
    List.mem_filter.mpr ⟨listed, by simpa using other⟩
  have resolved := resolved_of_roster rows.resolves
  obtain ⟨index, position⟩ := List.mem_iff_getElem?.mp remains
  have entry : (member, index) ∈ (roster.filter (·.authId ≠ revoked.authId)).zipIdx :=
    List.mk_mem_zipIdx_iff_getElem?.mpr position
  obtain ⟨record, inside, made⟩ := mapM_step rows.built entry
  have held := resolveMember_built sealing (resolved member listed) (rows.readsBack member listed)
    made
  exact ⟨record, inside, (resolveMember_eq_some held.2).1⟩

theorem authId_head : revoked.authId.asStr.head? = some 'k' := by
  have parsed : AuthKeyId.parse revoked.authId.asStr = .ok revoked.authId :=
    AuthKeyId.parse_eq_ok.mpr ⟨AuthKeyId.trim_of_isValid rows.valid, rows.valid⟩
  exact AuthKeyId.head?_of_parse parsed

theorem authId_ne_memberKey (other : AuthKeyId) : memberRecordKey other ≠ revoked.authId.asStr := by
  intro same
  have letters : some 'm' = some 'k' := (congrArg List.head? same).trans rows.authId_head
  exact absurd letters (by decide)

theorem authId_ne_shareKey (raw : Str) :
    sentinelShareRecordPrefix ++ raw ≠ revoked.authId.asStr := by
  intro same
  have letters : some 's' = some 'k' := (congrArg List.head? same).trans rows.authId_head
  exact absurd letters (by decide)

/-- What stands under the roster key of the revoked member is its roster row. -/
theorem isMember_of_memberKey (inside : record ∈ records)
    (key : record.key.asStr = memberRecordKey revoked.authId)
    (classified : classify record = .ok row) : row.isMember = true := by
  obtain ⟨own, member, resolved⟩ := row_of_mem_roster rows.resolves rows.listed
  obtain ⟨again, ownKey, _⟩ := resolveMember_eq_some resolved
  have same : record = own := List.inj_on_of_nodup_map rows.distinct inside member
    (key.trans ownKey.symm)
  rw [same, again] at classified
  cases classified
  rfl

/-- If the device is removed everywhere, its rows stood where they were looked for. -/
theorem cleanly (sealing : VaultCrypto.Sealing)
    (everywhere : RevokedEverywhere membersKey records (kept.reduceOption ++ memberRecords) roster
      revoked.deviceId) :
    RevokesCleanly records roster revoked.authId revoked.deviceId where
  shares := by
    intro record inside share classified
    by_contra elsewhere
    obtain ⟨raw, written, _⟩ := key_of_share classified
    have unmember : record.key.asStr ≠ memberRecordKey revoked.authId := by
      intro key
      have letters := congrArg List.head? (written.symm.trans key)
      exact absurd letters (show some 's' ≠ some 'm' by decide)
    have stays : record ∈ kept.reduceOption := rows.mem_kept.mpr
      ⟨⟨inside, written ▸ rows.authId_ne_shareKey raw, unmember, elsewhere⟩, _, classified, rfl⟩
    exact everywhere.gone record (List.mem_append_left _ stays) _ classified rfl rfl
  ownRow := by
    intro record inside key row classified
    by_contra foreign
    have unmember : row.isMember = false := by
      by_contra isMember
      obtain ⟨member, _, resolved⟩ := mem_roster_of_row rows.resolves inside classified
        (by simpa using isMember)
      have ownKey := (resolveMember_eq_some resolved).2.1
      exact rows.authId_ne_memberKey _ (ownKey.symm.trans key)
    rcases List.mem_append.mp (everywhere.unchanged record inside row classified unmember foreign)
      with stays | made
    · exact (rows.mem_kept.mp stays).1.2.1 key
    · obtain ⟨member, _, _, ownKey, _⟩ := rows.mem_built sealing made
      exact rows.authId_ne_memberKey _ (ownKey.symm.trans key)
  oneMember := by
    intro member listed same
    by_contra other
    obtain ⟨record, inside, classified⟩ := rows.built_of_mem sealing listed other
    exact everywhere.gone record (List.mem_append_right _ inside) _ classified rfl
      ⟨member, listed, rfl, same⟩

/-- If the rows of the device stand where they are looked for, it is removed everywhere. -/
theorem everywhere (sealing : VaultCrypto.Sealing)
    (derived : ∀ key, AppId.parse (Age.appId key).asStr = .ok (Age.appId key))
    (clean : RevokesCleanly records roster revoked.authId revoked.deviceId) :
    RevokedEverywhere membersKey records (kept.reduceOption ++ memberRecords) roster
      revoked.deviceId := by
  have ids := nodup_roster rows.distinct rows.resolves
  have sameFilter : roster.filter (·.deviceId ≠ revoked.deviceId) =
      roster.filter (·.authId ≠ revoked.authId) := by
    apply List.filter_congr
    intro member listed
    have iff : member.deviceId = revoked.deviceId ↔ member.authId = revoked.authId :=
      ⟨clean.oneMember member listed,
        fun same => congrArg _ (eq_of_authId ids listed rows.listed same)⟩
    simp only [ne_eq, iff]
  have resolved := resolved_of_roster rows.resolves
  have remaining : ∀ member ∈ roster.filter (·.authId ≠ revoked.authId), member ∈ roster :=
    fun member => List.mem_of_mem_filter
  have canonical : AppId.parse revoked.deviceId.asStr = .ok revoked.deviceId := by
    have own := (resolved revoked rows.listed).deviceId
    unfold DevicePublicKey.tryAppId at own
    split at own
    · rw [← Except.ok.inj own]
      exact derived _
    · cases own
  refine ⟨?_, ?_, ?_, ?_⟩
  · rw [sameFilter]
    exact resolve_updated rows.collected
      (resolve_builtRecords sealing (fun member inside => resolved member (remaining member inside))
        (fun member inside => rows.readsBack member (remaining member inside)) rows.built)
      ((sorted_roster rows.resolves).filter _)
  · rw [sameFilter]
    exact filter_authId_ne_nil ids rows.several
  · intro record inside row classified access belongs
    rcases List.mem_append.mp inside with stays | made
    · obtain ⟨⟨own, notAuth, notMember, notShare⟩, again, other, unmember⟩ := rows.mem_kept.mp stays
      rw [classified] at other
      cases other
      cases row with
      | auth rowId envelopes =>
        obtain ⟨member, listed, same, device⟩ := belongs
        have key := key_of_auth classified
        rw [← same, clean.oneMember member listed device] at key
        exact notAuth key
      | sentinelShare deviceId share =>
        cases belongs
        exact notShare (clean.shares record own share classified)
      | member => cases unmember
      | join => cases access
      | secret => cases access
    · obtain ⟨member, listed, other, _, again⟩ := rows.mem_built sealing made
      rw [classified] at again
      cases again
      obtain ⟨second, listed', same, device⟩ := belongs
      rw [← same, clean.oneMember second listed' device] at other
      exact other rfl
  · intro record inside row classified unmember foreign
    refine List.mem_append_left _ (rows.mem_kept.mpr ⟨⟨inside, ?_, ?_, ?_⟩, row, classified,
      unmember⟩)
    · intro key
      exact foreign (clean.ownRow record inside key row classified)
    · intro key
      rw [rows.isMember_of_memberKey inside key classified] at unmember
      cases unmember
    · intro key
      obtain ⟨share, same⟩ := classify_shareKey canonical key classified
      rw [same] at foreign
      exact foreign rfl

end RevocationRows

/-- A revocation that goes through removes the device everywhere and nothing else exactly
if its rows stand where it looks for them. -/
theorem revoked_everywhere_iff (sealing : VaultCrypto.Sealing)
    (derived : ∀ key, AppId.parse (Age.appId key).asStr = .ok (Age.appId key))
    (distinct : (records.map fun record => record.key.asStr).Nodup)
    (resolves : resolveMemberRoster records membersKey = .ok roster)
    (readsBack : ∀ member ∈ roster, (MemberEntry.ofMember member).toJson.ReadsBack)
    (revokes : revokeVaultMember records membersKey authId entropy = .ok updated) :
    ∃ revoked ∈ roster, revoked.authId = authId ∧
      (RevokedEverywhere membersKey records updated roster revoked.deviceId ↔
        RevokesCleanly records roster authId revoked.deviceId) := by
  obtain ⟨valid, several, revoked, listed, rfl, memberRecords, kept, built, collected, rfl⟩ :=
    revokeVaultMember_eq_ok resolves revokes
  have rows : RevocationRows membersKey records roster entropy memberRecords kept revoked :=
    ⟨valid, several, distinct, resolves, readsBack, listed, built, collected⟩
  exact ⟨revoked, listed, rfl, rows.cleanly sealing, rows.everywhere sealing derived⟩

end

end

namespace TestSupport

/-! Two members, of which the first holds a Sentinel share. -/

def lostAuthId : AuthKeyId := ⟨"key_".toList ++ List.replicate 64 'a'⟩

def stayingAuthId : AuthKeyId := ⟨"key_".toList ++ List.replicate 64 'b'⟩

def lostKey : DevicePublicKey := ⟨"age1lost".toList⟩

def stayingKey : DevicePublicKey := ⟨"age1staying".toList⟩

def entryText (pkId pk : Str) : Str :=
  "\x7b\"pk_id\":\"".toList ++ pkId ++ "\",\"pk\":\"".toList ++ pk ++ "\"\x7d".toList

def shareText : Str :=
  ("\x7b\"version\":2,\"threshold\":2,\"required_participants\":2,\"share_index\":1," ++
    "\"ciphertext\":\"BEGIN AGE ENCRYPTED FILE\"\x7d").toList

def heldShare : SentinelShareEnvelope := ⟨2, 2, 2, 1, ⟨ageArmorMarker⟩⟩

def lostMember : VaultMember :=
  { deviceId := ⟨List.replicate 16 'a'⟩, authId := lostAuthId, publicKey := lostKey
    enrolledAt := [], label := .unnamed }

def stayingMember : VaultMember :=
  { deviceId := ⟨List.replicate 16 'b'⟩, authId := stayingAuthId, publicKey := stayingKey
    enrolledAt := [], label := .unnamed }

@[reducible] def rosterJson : JsonText where
  parse text :=
    if text = entryText lostAuthId.asStr lostKey.asStr then
      some (MemberEntry.ofMember lostMember).toJson
    else if text = entryText stayingAuthId.asStr stayingKey.asStr then
      some (MemberEntry.ofMember stayingMember).toJson
    else if text = shareText then some heldShare.toJson
    else none
  print
    | .object [("pk_id", .text pkId), ("pk", .text pk)] => entryText pkId pk
    | _ => "null".toList

@[reducible] def rosterRecipients : AgeRecipients where
  isRecipient text := startsWith text "age1".toList

@[reducible] def rosterAge : Age where
  toPublic identity := ⟨identity⟩
  appId key := ⟨List.replicate 16 (if key = lostKey then 'a' else 'b')⟩
  authId key := if key = lostKey then lostAuthId else stayingAuthId
  sealBytes _ plaintext _ := .ok ⟨plaintext⟩
  openIdentityBytes ciphertext _ := .ok ciphertext.asStr

/-- Armor with the plaintext left readable. -/
@[reducible] def rosterCrypto : VaultCrypto where
  encryptValue _ plaintext _ := .ok ⟨ageArmorMarker ++ plaintext⟩
  decryptValue _ ciphertext := .ok (ciphertext.asStr.drop ageArmorMarker.length)

attribute [local instance] rosterJson rosterRecipients rosterAge rosterCrypto

theorem rosterSealing : VaultCrypto.Sealing where
  opens _ plaintext _ armored encrypted := by
    cases encrypted
    exact congrArg Except.ok (List.drop_left)
  armored _ plaintext _ armored encrypted := by
    cases encrypted
    exact decide_eq_true ⟨[], plaintext, rfl⟩
  notJson _ plaintext _ armored encrypted := by
    cases encrypted
    have apart : ∀ text : Str, text.head? = some '\x7b' → ageArmorMarker ++ plaintext ≠ text := by
      rintro text letter rfl
      cases letter
    show (if _ then _ else _) = none
    rw [if_neg (apart _ rfl), if_neg (apart _ rfl), if_neg (apart _ (by decide +kernel))]

def rosterKey : SymmetricKey := ⟨List.replicate 64 '0'⟩

def memberRow (member : VaultMember) : StoredSecretRecord :=
  ⟨⟨memberRecordKey member.authId⟩, .undeclared,
    ⟨ageArmorMarker ++ entryText member.authId.asStr member.publicKey.asStr⟩⟩

def shareRow (raw : Str) : StoredSecretRecord :=
  ⟨⟨sentinelShareRecordPrefix ++ raw⟩, .undeclared, ⟨shareText⟩⟩

def storedRows (share : StoredSecretRecord) : List StoredSecretRecord :=
  [memberRow lostMember, memberRow stayingMember, share]

def bothMembers : List VaultMember := [lostMember, stayingMember]

def paddedId : Str := ' ' :: lostMember.deviceId.asStr

/-- What is evaluated of the rows. -/
structure CheckedRoster : Prop where
  lostId : AppId.parse lostMember.deviceId.asStr = .ok lostMember.deviceId
  stayingId : AppId.parse stayingMember.deviceId.asStr = .ok stayingMember.deviceId
  padded : AppId.parse paddedId = .ok lostMember.deviceId
  valid : AuthKeyId.isValid lostAuthId.asStr = true
  apart : stayingMember.authId ≠ lostAuthId
  devicesApart : stayingMember.deviceId ≠ lostMember.deviceId
  lostRow : resolveMember rosterKey (memberRow lostMember) = .ok (some lostMember)
  stayingRow : resolveMember rosterKey (memberRow stayingMember) = .ok (some stayingMember)
  share : SentinelShareEnvelope.parseSentinelShareEnvelope shareText = .ok heldShare
  sorted : bothMembers.Pairwise fun first second => decide (first.authId ≤ second.authId) = true
  stayingText : entryText stayingAuthId.asStr stayingKey.asStr ≠
    entryText lostAuthId.asStr lostKey.asStr
  built : buildMembersRecords [stayingMember] rosterKey (fun _ => []) =
    .ok [memberRow stayingMember]
  found : bothMembers.find? (·.authId = lostAuthId) = some lostMember
  remaining : bothMembers.filter (·.authId ≠ lostAuthId) = [stayingMember]
  distinct : ∀ raw ∈ [lostMember.deviceId.asStr, paddedId],
    ((storedRows (shareRow raw)).map fun record => record.key.asStr).Nodup
  kept : replaceMemberRecords
    (withoutKeys (storedRows (shareRow lostMember.deviceId.asStr)) lostAuthId lostMember.deviceId)
    [memberRow stayingMember] = .ok [memberRow stayingMember]
  keptPadded : replaceMemberRecords
    (withoutKeys (storedRows (shareRow paddedId)) lostAuthId lostMember.deviceId)
    [memberRow stayingMember] = .ok [shareRow paddedId, memberRow stayingMember]
  keysApart : ∀ record ∈ storedRows (shareRow lostMember.deviceId.asStr),
    record.key.asStr ≠ lostAuthId.asStr

theorem checkedRoster : CheckedRoster := by
  constructor <;> decide +kernel

theorem rosterDerived (key : DevicePublicKey) :
    AppId.parse (Age.appId key).asStr = .ok (Age.appId key) := by
  show AppId.parse (List.replicate 16 (if key = lostKey then 'a' else 'b')) =
    .ok ⟨List.replicate 16 (if key = lostKey then 'a' else 'b')⟩
  by_cases lost : key = lostKey
  · rw [if_pos lost]
    exact CheckedRoster.lostId checkedRoster
  · rw [if_neg lost]
    exact CheckedRoster.stayingId checkedRoster

theorem eq_lostMember {member : VaultMember} (listed : member ∈ bothMembers)
    (named : member.authId = lostAuthId) : member = lostMember := by
  rcases List.mem_cons.mp listed with rfl | listed
  · rfl
  · rw [List.mem_singleton.mp listed] at named
    exact absurd named (CheckedRoster.apart checkedRoster)

theorem mem_storedRows {share record : StoredSecretRecord} (inside : record ∈ storedRows share) :
    record = memberRow lostMember ∨ record = memberRow stayingMember ∨ record = share := by
  simpa [storedRows] using inside

/-- The share row may be padded: it is no roster row. -/
theorem resolves_storedRows {raw : Str} (parsed : AppId.parse raw = .ok lostMember.deviceId) :
    resolveMemberRoster (storedRows (shareRow raw)) rosterKey = .ok bothMembers := by
  have share : classify (shareRow raw) = .ok (.sentinelShare lostMember.deviceId heldShare) :=
    classify_share parsed (CheckedRoster.share checkedRoster)
  refine resolveMemberRoster_eq_ok.mpr ⟨[some lostMember, some stayingMember, none], ?_, ?_⟩
  · rw [storedRows, List.mapM_cons, CheckedRoster.lostRow checkedRoster, List.mapM_cons,
      CheckedRoster.stayingRow checkedRoster, List.mapM_cons, resolveMember_of_other share rfl]
    rfl
  · exact List.mergeSort_of_pairwise (l := bothMembers) (CheckedRoster.sorted checkedRoster)

theorem readsBack_bothMembers :
    ∀ member ∈ bothMembers, (MemberEntry.ofMember member).toJson.ReadsBack := by
  intro member listed
  rcases List.mem_cons.mp listed with rfl | listed
  · exact if_pos rfl
  · rw [List.mem_singleton.mp listed]
    exact (if_neg (CheckedRoster.stayingText checkedRoster)).trans (if_pos rfl)

theorem revokes_storedRows {raw : Str} (left : List StoredSecretRecord)
    (parsed : AppId.parse raw = .ok lostMember.deviceId)
    (kept : replaceMemberRecords
      (withoutKeys (storedRows (shareRow raw)) lostAuthId lostMember.deviceId)
      [memberRow stayingMember] = .ok left) :
    revokeVaultMember (storedRows (shareRow raw)) rosterKey lostAuthId (fun _ => []) = .ok left := by
  unfold revokeVaultMember
  rw [CheckedRoster.valid checkedRoster, Bool.not_true, if_neg Bool.false_ne_true]
  refine bind_eq_ok.mpr ⟨bothMembers, resolves_storedRows parsed, ?_⟩
  rw [if_neg (by decide), CheckedRoster.found checkedRoster]
  simp only [CheckedRoster.remaining checkedRoster]
  exact bind_eq_ok.mpr ⟨[memberRow stayingMember], CheckedRoster.built checkedRoster, kept⟩

/-- The device, its roster row and its share are gone. -/
theorem revoked_everywhere_iff_share :
    ∃ revoked ∈ bothMembers, revoked.authId = lostAuthId ∧
      RevokedEverywhere rosterKey (storedRows (shareRow lostMember.deviceId.asStr))
        [memberRow stayingMember] bothMembers revoked.deviceId := by
  obtain ⟨revoked, listed, named, exact⟩ := revoked_everywhere_iff rosterSealing rosterDerived
    (CheckedRoster.distinct checkedRoster _ (by simp))
    (resolves_storedRows (CheckedRoster.lostId checkedRoster)) readsBack_bothMembers
    (revokes_storedRows [memberRow stayingMember] (CheckedRoster.lostId checkedRoster)
      (CheckedRoster.kept checkedRoster))
  refine ⟨revoked, listed, named, exact.mpr ?_⟩
  rw [eq_lostMember listed named]
  constructor
  · intro record inside share classified
    rcases mem_storedRows inside with rfl | rfl | rfl
    · rw [(resolveMember_eq_some (CheckedRoster.lostRow checkedRoster)).1] at classified
      cases classified
    · rw [(resolveMember_eq_some (CheckedRoster.stayingRow checkedRoster)).1] at classified
      cases classified
    · rfl
  · intro record inside key
    exact absurd key (CheckedRoster.keysApart checkedRoster record inside)
  · intro member listed same
    rcases List.mem_cons.mp listed with rfl | listed
    · rfl
    · rw [List.mem_singleton.mp listed] at same
      exact absurd same (CheckedRoster.devicesApart checkedRoster)

/-- A share under a key with a space before the device id is left. -/
theorem padded_share_left :
    ¬ ∀ (membersKey : SymmetricKey) (records updated : List StoredSecretRecord)
      (roster : List VaultMember) (authId : AuthKeyId) (entropy : Nat → Str),
      (records.map fun record => record.key.asStr).Nodup →
      resolveMemberRoster records membersKey = .ok roster →
      revokeVaultMember records membersKey authId entropy = .ok updated →
      ∃ revoked ∈ roster, revoked.authId = authId ∧
        RevokedEverywhere membersKey records updated roster revoked.deviceId := by
  intro claimed
  have share : classify (shareRow paddedId) = .ok (.sentinelShare lostMember.deviceId heldShare) :=
    classify_share (CheckedRoster.padded checkedRoster) (CheckedRoster.share checkedRoster)
  obtain ⟨revoked, listed, named, everywhere⟩ := claimed rosterKey (storedRows (shareRow paddedId))
    [shareRow paddedId, memberRow stayingMember] bothMembers lostAuthId (fun _ => [])
    (CheckedRoster.distinct checkedRoster _ (by simp))
    (resolves_storedRows (CheckedRoster.padded checkedRoster))
    (revokes_storedRows _ (CheckedRoster.padded checkedRoster)
      (CheckedRoster.keptPadded checkedRoster))
  have device := eq_lostMember listed named
  exact everywhere.gone _ (by simp) _ share rfl (congrArg _ device.symm)

end TestSupport

end Nook.Auth
