import WslVault.IdentityService.Invitations

/-!
# Redeeming an invitation

The key of an invitation is named after the local part of the address and the first eight
digits of the invitation's id, which are the number of a window of 65.536 seconds.
-/

namespace WslVault.IdentityService.Invitations

open Core Base Storage InvitationStore

variable {digest : String → String} {hashKey : String → List UInt8} {draw : Draw}
  {tenants : TenantTable} {keys keys' : ApiKeyTable}
  {invitations invitations' : InvitationTable} {token : String} {pending : InvitationRow}
  {tenant : TenantRow} (i : InvitationRow)

theorem toList_keyName :
    (keyName i).toList = (localPart i.email).toList ++ '-' :: i.id.hex.take 8 := by
  simp [keyName]

theorem length_keyName : (keyName i).toList.length = (localPart i.email).toList.length + 9 := by
  simp [toList_keyName, i.id.length_eq]

theorem getLast?_keyName : ∃ c, (keyName i).toList.getLast? = some c ∧ c ≠ ' ' := by
  have hlen : (i.id.hex.take 8).length = 8 := by simp [i.id.length_eq]
  have hne : i.id.hex.take 8 ≠ [] := List.ne_nil_of_length_pos (by omega)
  refine ⟨(i.id.hex.take 8).getLast hne, ?_, ?_⟩
  · rw [toList_keyName, List.getLast?_append, List.getLast?_cons,
      List.getLast?_eq_getLast_of_ne_nil hne]
    simp
  · intro h
    have hmem := List.mem_of_mem_take (List.getLast_mem hne)
    have hhex := List.all_eq_true.mp i.id.isHex _ hmem
    rw [h] at hhex
    exact absurd hhex (by decide)

theorem storedRow_mintInvited {stored : ApiKeyRow} :
    ApiKeyStore.storedRow (mintInvited hashKey draw pending).2 = .ok stored ↔
      (localPart pending.email).toList.length ≤ 246 ∧
        stored = (mintInvited hashKey draw pending).2 := by
  obtain ⟨c, hlast, hc⟩ := getLast?_keyName pending
  have hname : ∀ name, varchar 255 (mintInvited hashKey draw pending).2.name = .ok name ↔
      (keyName pending).toList.length ≤ 255 ∧ name = keyName pending :=
    fun name => varchar_eq_ok hlast hc
  have hstart : varchar 12 (mintInvited hashKey draw pending).2.keyPrefix =
      .ok (mintInvited hashKey draw pending).2.keyPrefix := by
    refine varchar_of_le ?_
    simp only [mintInvited, ApiKeyManager.mintRow, ApiKeyManager.mint, ApiKeyRecord.row,
      String.toList_ofList, List.length_take]
    omega
  have hcreator : varchar 255 (mintInvited hashKey draw pending).2.createdBy =
      .ok (mintInvited hashKey draw pending).2.createdBy := by
    refine varchar_of_le ?_
    have hid : pending.id.toString.toList.length = 36 := by
      rw [Uuid.toString, String.toList_ofList, pending.id.hyphenated_length]
    simp [mintInvited, ApiKeyManager.mintRow, ApiKeyManager.mint, ApiKeyRecord.row, hid]
  simp only [ApiKeyStore.storedRow, bind_eq_ok, pure_eq_ok, hname, hstart, hcreator,
    length_keyName, Except.ok.injEq]
  constructor
  · rintro ⟨name, ⟨hlen, rfl⟩, _, rfl, _, rfl, rfl⟩
    exact ⟨by omega, rfl⟩
  · rintro ⟨hlen, rfl⟩
    exact ⟨_, ⟨by omega, rfl⟩, _, rfl, _, rfl, rfl⟩

/-! ## Redemption -/

variable {now : Timestamp} {keyId : Uuid}

theorem findRedeemable_eq_ok :
    findRedeemable digest now invitations token = .ok pending ↔
      findByToken digest invitations token = some pending ∧
        pending.isRedeemable now = true := by
  simp only [findRedeemable, bind_eq_ok, okOr_eq_ok, refuseIf_eq_ok, pure_eq_ok]
  constructor
  · rintro ⟨_, hfound, -, hredeemable, rfl⟩
    exact ⟨hfound, by simpa using hredeemable⟩
  · rintro ⟨hfound, hredeemable⟩
    exact ⟨pending, hfound, (), by simp [hredeemable], rfl⟩

def claimedTable (digest : String → String) (invitations : InvitationTable) (token : String)
    (now : Timestamp) (keyId : Uuid) : InvitationTable :=
  invitations.update (InvitationStore.claimable (InvitationStore.tokenHash digest token) now)
    (InvitationRow.use now keyId) (InvitationRow.id_use now keyId)

theorem claim_of_found (hfound : findByToken digest invitations token = some pending)
    (hredeemable : pending.isRedeemable now = true) :
    claim invitations (tokenHash digest token) now keyId =
      some (claimedTable digest invitations token now keyId, pending.use now keyId) := by
  have hfind : invitations.rows.find?
      (claimable (tokenHash digest token) now) = some pending := by
    obtain ⟨hhash, before, after, hrows, hnone⟩ := List.find?_eq_some_iff_append.mp hfound
    refine List.find?_eq_some_iff_append.mpr ⟨?_, before, after, hrows, fun i hi => ?_⟩
    · simpa [claimable, hredeemable] using hhash
    · have := hnone i hi
      simp only [Bool.not_eq_eq_eq_not, Bool.not_true] at this
      simp [claimable, this]
  rw [claim, hfind]
  rfl

theorem get?_of_live (h : loadLiveTenant tenants pending.tenantId = .ok tenant) :
    tenants.get? pending.tenantId = some tenant ∧ tenant.deletedAt = none := by
  unfold loadLiveTenant getTenant at h
  cases hget : tenants.get? pending.tenantId with
  | none => simp [hget] at h
  | some t =>
    simp only [hget] at h
    split at h
    · next hdeleted =>
      cases h
      exact ⟨rfl, by simpa using hdeleted⟩
    · cases h

theorem acceptInvitation_eq_ok {response : AcceptResponse} :
    acceptInvitation digest hashKey draw tenants keys invitations token =
        .ok (keys', invitations', response) ↔
      ∃ pending tenant invitation, findRedeemable digest draw.now invitations token = .ok pending ∧
        loadLiveTenant tenants pending.tenantId = .ok tenant ∧
        ApiKeyStore.insert tenants keys (mintInvited hashKey draw pending).2 = .ok keys' ∧
        claim invitations (tokenHash digest token) draw.now
          draw.id = some (invitations', invitation) ∧
        response = acceptResponse (mintInvited hashKey draw pending).1 tenant invitation := by
  simp only [acceptInvitation, redeem, bind_eq_ok, pure_eq_ok, mapError_eq_ok_iff,
    okOr_eq_ok, Prod.exists, Prod.mk.injEq]
  constructor
  · rintro ⟨pending, hfound, tenant, hlive, _, _, _, ⟨_, hkeys, _, _, hclaim, rfl, rfl, rfl⟩,
      rfl, rfl, rfl⟩
    exact ⟨pending, tenant, _, hfound, hlive, hkeys, hclaim, rfl⟩
  · rintro ⟨pending, tenant, invitation, hfound, hlive, hkeys, hclaim, rfl⟩
    exact ⟨pending, hfound, tenant, hlive, _, _, _, ⟨_, hkeys, _, _, hclaim, rfl, rfl, rfl⟩,
      rfl, rfl, rfl⟩

section Redeemable

variable (hfound : InvitationStore.findByToken digest invitations token = some pending)
  (hredeemable : pending.isRedeemable draw.now = true)
  (hlive : loadLiveTenant tenants pending.tenantId = .ok tenant) {k : ApiKeyRow}

include hfound hredeemable hlive

theorem accepted_of_no_clash
    (hlen : (localPart pending.email).toList.length ≤ 246)
    (hclash : ∀ k ∈ keys, ¬ k.Clash (mintInvited hashKey draw pending).2) :
    ∃ keys', keys'.rows = keys.rows ++ [(mintInvited hashKey draw pending).2] ∧
      acceptInvitation digest hashKey draw tenants keys invitations token =
        .ok (keys', claimedTable digest invitations token draw.now draw.id,
          acceptResponse (mintInvited hashKey draw pending).1 tenant
            (pending.use draw.now draw.id)) := by
  have htenant : (tenants.get? (mintInvited hashKey draw pending).2.tenantId).isSome := by
    rw [show (mintInvited hashKey draw pending).2.tenantId = pending.tenantId from rfl,
      (get?_of_live hlive).1]
    rfl
  cases hins : keys.insert? (mintInvited hashKey draw pending).2 with
  | none =>
    obtain ⟨k, hk, hid⟩ := Table.insert?_eq_none.mp hins
    exact absurd (.inl hid) (hclash k hk)
  | some keys' =>
    have hrows := (Table.insert?_eq_some.mp hins).2
    have hinsert := ApiKeyStore.insert_eq_ok.mpr
      ⟨_, storedRow_mintInvited.mpr ⟨hlen, rfl⟩, hclash, hrows, htenant⟩
    exact ⟨keys', hrows, acceptInvitation_eq_ok.mpr ⟨pending, tenant, _,
      findRedeemable_eq_ok.mpr ⟨hfound, hredeemable⟩, hlive, hinsert,
      claim_of_found hfound hredeemable, rfl⟩⟩

end Redeemable

/-- An invitation that is neither used nor expired, to a live tenant, gives its holder a
key just if no active key of the tenant has the name of the key, and the name is not
too long. The id and the raw key are new. -/
theorem valid_invitation_redeemed_iff
    (hfound : InvitationStore.findByToken digest invitations token = some pending)
    (hredeemable : pending.isRedeemable draw.now = true)
    (hlive : loadLiveTenant tenants pending.tenantId = .ok tenant)
    (hfresh : ∀ k ∈ keys, k.id ≠ draw.id ∧
      k.keyHash ≠ hashKey (ApiKeyManager.generateKey draw.secret)) :
    (∃ result, acceptInvitation digest hashKey draw tenants keys invitations token = .ok result) ↔
      (∀ k ∈ keys, k.tenantId = pending.tenantId → k.revokedAt = none → k.name ≠ keyName pending) ∧
      (localPart pending.email).toList.length ≤ 246 := by
  constructor
  · rintro ⟨⟨keys', invitations', response⟩, h⟩
    obtain ⟨pending', _, _, hpending', -, hinsert, -, -⟩ := acceptInvitation_eq_ok.mp h
    cases hfound.symm.trans (findRedeemable_eq_ok.mp hpending').1
    obtain ⟨stored, hstored, hclash, -, -⟩ := ApiKeyStore.insert_eq_ok.mp hinsert
    obtain ⟨hlen, rfl⟩ := storedRow_mintInvited.mp hstored
    refine ⟨fun k hk htenant hactive hname => ?_, hlen⟩
    exact hclash k hk (.inr (.inr ⟨hactive, rfl, htenant, hname⟩))
  · rintro ⟨hname, hlen⟩
    have hclash : ∀ k ∈ keys, ¬ k.Clash (mintInvited hashKey draw pending).2 := by
      rintro k hk (hid | hhash | ⟨hactive, -, htenant, hsame⟩)
      · exact (hfresh k hk).1 hid
      · exact (hfresh k hk).2 hhash
      · exact hname k hk htenant hactive hsame
    obtain ⟨keys', -, h⟩ := accepted_of_no_clash hfound hredeemable hlive hlen hclash
    exact ⟨_, h⟩

def inviteeTenant : Uuid := Uuid.repeated 'e' (.refl true)

def inviteeRow : TenantRow := .live inviteeTenant "acme" "Acme" .project .int

def inviteeTenants : TenantTable := .singleton inviteeRow

def inviteeOf (id : Uuid) (millis : Nat) (email token : String) : InvitationRow where
  id := id
  tenantId := inviteeTenant
  email := email
  tokenHash := token
  policies := ["default"]
  createdBy := "bootstrap-admin"
  createdAt := millis * 1000
  expiresAt := millis * 1000 + seconds (72 * 3600)
  usedAt := none
  apiKeyId := none
  expiry_after_creation := Int.lt_add_of_pos_right _ (by decide)

def firstInvitation : InvitationRow :=
  inviteeOf ⟨"019a0b0c0d0e70008000000000000000".toList, by decide, by decide⟩ 0x019a0b0c0d0e
    "alice@example.com" "first"

def secondInvitation : InvitationRow :=
  inviteeOf ⟨"019a0b0c10f670008000000000000000".toList, by decide, by decide⟩ 0x019a0b0c10f6
    "alice@example.org" "second"

def bothInvited : InvitationTable := ⟨[firstInvitation, secondInvitation], by decide⟩

def inviteeHash (rawKey : String) : List UInt8 := rawKey.toList.map fun c => UInt8.ofNat c.toNat

def firstDraw : Draw :=
  ⟨[1], Uuid.repeated '1' (.refl true), firstInvitation.createdAt + seconds 60⟩

def secondDraw : Draw :=
  ⟨[2], Uuid.repeated '2' (.refl true), secondInvitation.createdAt + seconds 60⟩

/-- Two people of one local part are invited within a second: the ids start with the time
in milliseconds, and agree in the first eight digits. After the first has redeemed, the
second is told that the link is not valid. -/
theorem second_invitation_refused : ∃ keys invitations response,
    acceptInvitation id inviteeHash firstDraw inviteeTenants .empty bothInvited "first" =
        .ok (keys, invitations, response) ∧
      findByToken id invitations "second" = some secondInvitation ∧
      secondInvitation.isRedeemable secondDraw.now = true ∧
      loadLiveTenant inviteeTenants secondInvitation.tenantId = .ok inviteeRow ∧
      acceptInvitation id inviteeHash secondDraw inviteeTenants keys invitations "second" =
        .error invalidInvitation :=
  ⟨_, _, _, rfl, rfl, rfl, rfl, rfl⟩

theorem first_invitation_redeemed :
    ∃ result, acceptInvitation id inviteeHash firstDraw inviteeTenants .empty bothInvited "first" =
      .ok result := by
  have hfound : findByToken id bothInvited "first" = some firstInvitation := rfl
  have hlive : loadLiveTenant inviteeTenants inviteeTenant = .ok inviteeRow := rfl
  exact (valid_invitation_redeemed_iff hfound rfl hlive
    fun k hk => absurd hk (Table.not_mem_empty k)).mpr
      ⟨fun k hk => absurd hk (Table.not_mem_empty k), by decide⟩

end WslVault.IdentityService.Invitations
