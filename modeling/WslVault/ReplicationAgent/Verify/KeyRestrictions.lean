import WslVault.IdentityService.Verify.KeyRecords
import WslVault.ReplicationAgent.KeySource
import WslVault.ReplicationAgent.Verify.ApiKeys

/-!
# The restrictions of a replicated key

A peer that has applied the events of a key in their order has the key's row as the last of
them shows it (`Mirrors`), which is the row at home as far as the trigger looks (`Recorded`).
Neither looks at the superuser flag or at the second factor.
-/

namespace WslVault.ReplicationAgent

open Core Base Storage
open IdentityService (ApiKeyValidationResult Backend)
open IdentityService.ApiKeyManager (parseKeyRandomPortion validateKey)

def ReplicationEvent.concerns (id : Uuid) (e : ReplicationEvent) : Bool :=
  e.eventType == .apiKeyUpsert && (e.payload.texts.lookup "id").bind Uuid.ofPg == some id

theorem concerns_iff {id : Uuid} {e : ReplicationEvent} : e.concerns id = true ↔
      e.eventType = .apiKeyUpsert ∧ (e.payload.texts.lookup "id").bind Uuid.ofPg = some id := by
  simp [ReplicationEvent.concerns]

theorem concerns_apiKeyUpsertEvent (region : String) (eventId id : Uuid) (createdAt : Timestamp)
    (row : ApiKeyRow) :
    (apiKeyUpsertEvent region eventId createdAt row).concerns id = decide (row.id = id) := by
  have hid : ((apiKeyUpsertEvent region eventId createdAt row).payload.texts.lookup "id").bind
      Uuid.ofPg = some row.id := Uuid.ofPg_toString row.id
  rw [Bool.eq_iff_iff, concerns_iff, hid]
  simp [apiKeyUpsertEvent]

def OneHash (keys : ApiKeyTable) : Prop :=
  ∀ k ∈ keys, ∀ l ∈ keys, k.keyHash = l.keyHash → k.id = l.id

/-- A statement that leaves a row under its id, and every other row as it was. -/
structure Puts (keys keys' : ApiKeyTable) (row : ApiKeyRow) : Prop where
  checked : checkApiKey keys row = .ok ()
  get? : ∀ id, keys'.get? id = if row.id = id then some row else keys.get? id

variable {keys keys' : ApiKeyTable} {row : ApiKeyRow} {id : Uuid}

theorem Puts.mem {k : ApiKeyRow} (h : Puts keys keys' row) (hk : k ∈ keys') :
    k = row ∨ k ∈ keys ∧ k.id ≠ row.id := by
  have hget := Table.get?_eq_some.mpr ⟨hk, rfl⟩
  rw [h.get?] at hget
  split at hget
  · exact .inl (Option.some.inj hget).symm
  · next hid => exact .inr ⟨(Table.get?_eq_some.mp hget).1, Ne.symm hid⟩

theorem Puts.oneHash (h : Puts keys keys' row) (hone : OneHash keys) : OneHash keys' := by
  have hfree := checkApiKey_eq_ok.mp h.checked
  intro k hk l hl hhash
  rcases h.mem hk with rfl | ⟨hk, hkid⟩ <;> rcases h.mem hl with rfl | ⟨hl, hlid⟩
  · rfl
  · exact absurd (.inr (.inl hhash.symm)) (hfree l hl hlid)
  · exact absurd (.inr (.inl hhash)) (hfree k hk hkid)
  · exact hone k hk l hl hhash

theorem findByHash_of_get? (hone : OneHash keys) (h : keys.get? id = some row) :
    ApiKeyStore.findByHash keys row.keyHash = some row := by
  obtain ⟨hrow, -⟩ := Table.get?_eq_some.mp h
  cases hfind : ApiKeyStore.findByHash keys row.keyHash with
  | none => exact absurd (beq_self_eq_true _) (List.find?_eq_none.mp hfind row hrow)
  | some k =>
    have hk : k ∈ keys := List.mem_of_find?_eq_some hfind
    have hhash : k.keyHash = row.keyHash := by simpa using List.find?_some hfind
    rw [Table.eq_of_key hk hrow (hone k hk row hrow hhash)]

variable {hashKey : String → List UInt8}

theorem validateKey_iff {rawKey text : String}
    (hone : OneHash keys) (h : keys.get? id = some row) (hhash : hashKey rawKey = row.keyHash)
    (hparse : parseKeyRandomPortion rawKey = .ok text) (tenants : TenantTable) (now : Timestamp)
    (result : ApiKeyValidationResult) :
    (∃ b, validateKey hashKey now (.database tenants keys) rawKey = .ok (b, result)) ↔
      (row.revokedAt = none ∧ row.expiresAt.any (· < now) = false) ∧
        result = IdentityService.ApiKeyManager.validationResult (.ofRow row) := by
  have hfind : IdentityService.ApiKeyManager.findByHash (.database tenants keys) (hashKey rawKey) =
      some (.ofRow row) := by
    rw [hhash, IdentityService.ApiKeyManager.findByHash, findByHash_of_get? hone h]
    rfl
  simp only [IdentityService.validateKey_eq_ok, hfind, Option.some.injEq]
  constructor
  · rintro ⟨b, -, record, rfl, hrevoked, hexpired, -, hresult⟩
    exact ⟨⟨hrevoked, hexpired⟩, hresult⟩
  · rintro ⟨⟨hrevoked, hexpired⟩, hresult⟩
    exact ⟨_, ⟨text, hparse⟩, _, rfl, hrevoked, hexpired, rfl, hresult⟩

/-- The last event of a key shows its row as far as the trigger looks. -/
structure Recorded (region : String) (id : Uuid) (s : KeySource) : Prop where
  none : s.keys.get? id = none → s.outbox.filter (·.concerns id) = []
  some : ∀ row, s.keys.get? id = some row → ∃ eventId createdAt old, old.id = id ∧
    unchanged old row = true ∧ (s.outbox.filter (·.concerns id)).getLast? =
      some (apiKeyUpsertEvent region eventId createdAt old)
  oneHash : OneHash s.keys

theorem unchanged_iff {old new : ApiKeyRow} :
    unchanged old new = true ↔ new.keyHash = old.keyHash ∧ new.policies = old.policies ∧
      new.pathPrefixes = old.pathPrefixes ∧ new.expiresAt = old.expiresAt ∧
      new.revokedAt = old.revokedAt ∧ new.name = old.name := by
  simp [unchanged, and_assoc]

namespace KeySource

variable {region : String} {s : KeySource}

/-- A statement changes nothing, or puts a row: with its event, or with none if
the trigger takes the row for unchanged. -/
theorem step_cases (region : String) (s : KeySource) (c : KeyChange) :
    (s.step region c).1 = s ∨ ∃ row, Puts s.keys (s.step region c).1.keys row ∧
      ((s.step region c).1.outbox =
          s.outbox ++ [apiKeyUpsertEvent region c.eventId c.createdAt row] ∨
        (s.step region c).1.outbox = s.outbox ∧
          ∃ old, s.keys.get? row.id = some old ∧ unchanged old row = true) := by
  unfold step
  split
  · next row =>
    split
    · next stored keys hstored hinsert =>
      refine .inr ⟨stored, ?_, .inl rfl⟩
      simp only [ApiKeyStore.insertRow, hstored, ok_bind, bind_eq_ok] at hinsert
      obtain ⟨⟨⟩, hcheck, h⟩ := hinsert
      split at h
      · cases h
      · next hins =>
        split at h
        · cases h
          exact ⟨hcheck, Table.get?_insert? hins⟩
        · cases h
    · exact .inl rfl
    · exact .inl rfl
  · next id change _ =>
    split
    · exact .inl rfl
    · next old hold =>
      have hid : old.id = id := (Table.get?_eq_some.mp hold).2
      dsimp only
      split
      · exact .inl rfl
      · next hcheck =>
        simp only [checkUpdate, bind_eq_ok] at hcheck
        obtain ⟨⟨⟩, hcheck, -⟩ := hcheck
        refine .inr ⟨written change old, ⟨hcheck, fun k => ?_⟩, ?_⟩
        · simp only [Table.get?_update]
          split
          · next hk =>
            have hk : k = id := hk.symm.trans hid
            rw [hk, hold]
            simp [hid]
          · next hk =>
            cases hother : s.keys.get? k with
            | none => rfl
            | some other =>
              have hother : other.id = k := (Table.get?_eq_some.mp hother).2
              have hne : other.id ≠ id := fun h => hk (hid.trans (h.symm.trans hother))
              simp [hne]
        · by_cases hsame : unchanged old (written change old) = true
          · exact .inr ⟨by simp [hsame], old, hid.symm ▸ hold, hsame⟩
          · exact .inl (by simp [hsame])

theorem recorded_step (c : KeyChange) (h : Recorded region id s) :
    Recorded region id (s.step region c).1 := by
  obtain hsame | ⟨row, hputs, hevents⟩ := step_cases region s c
  · rw [hsame]
    exact h
  by_cases hid : row.id = id
  · have hget : (s.step region c).1.keys.get? id = some row := by rw [hputs.get?, if_pos hid]
    refine ⟨fun hnone => (Option.some_ne_none row (hget.symm.trans hnone)).elim,
      fun row' hrow' => ?_, hputs.oneHash h.oneHash⟩
    cases hget.symm.trans hrow'
    obtain hevents | ⟨hevents, old, hold, hsame⟩ := hevents
    · refine ⟨c.eventId, c.createdAt, row, hid, unchanged_iff.mpr (by simp), ?_⟩
      simp [hevents, concerns_apiKeyUpsertEvent, hid]
    · obtain ⟨eventId, createdAt, first, hfirst, hshown, hlast⟩ := h.some old (hid ▸ hold)
      refine ⟨eventId, createdAt, first, hfirst, ?_, hevents ▸ hlast⟩
      rw [unchanged_iff] at hsame hshown ⊢
      grind
  · have hget : (s.step region c).1.keys.get? id = s.keys.get? id := by
      rw [hputs.get?, if_neg hid]
    have hfilter : (s.step region c).1.outbox.filter (·.concerns id) =
        s.outbox.filter (·.concerns id) := by
      obtain hevents | ⟨hevents, -⟩ := hevents
      · simp [hevents, concerns_apiKeyUpsertEvent, hid]
      · rw [hevents]
    refine ⟨fun hnone => ?_, fun row' hrow' => ?_, hputs.oneHash h.oneHash⟩
    · rw [hfilter]
      exact h.none (hget ▸ hnone)
    · rw [hfilter]
      exact h.some row' (hget ▸ hrow')

end KeySource

/-- The row of a key is the snapshot that was applied last. -/
structure Mirrors (id : Uuid) (s : Replica) : Prop where
  row : match (s.applied.filter (·.concerns id)).getLast? with
    | none => s.db.apiKeys.get? id = none
    | some e => ∃ row, s.db.apiKeys.get? id = some row ∧ Snapshot e row
  oneHash : OneHash s.db.apiKeys

theorem puts_upsertApiKey {tenants : List Uuid} (h : upsertApiKey tenants keys row = .ok keys') :
    Puts keys keys' (((keys.get? row.id).map row.merge).getD row) := by
  have hid : (((keys.get? row.id).map row.merge).getD row).id = row.id := by
    cases hget : keys.get? row.id with
    | none => rfl
    | some old => exact (Table.get?_eq_some.mp hget).2
  refine ⟨?_, fun k => ?_⟩
  · unfold upsertApiKey at h
    split at h
    · next old hget =>
      obtain ⟨⟨⟩, hcheck, -⟩ := bind_eq_ok.mp h
      rw [hget]
      exact hcheck
    · next hget =>
      obtain ⟨⟨⟩, hcheck, -⟩ := bind_eq_ok.mp h
      rw [hget]
      exact hcheck
  · rw [get?_upsertApiKey h, hid]
    split
    · next hk => rw [hk]
    · rfl

theorem mirrors_step (strategy localRegion : String) (a : Application) {s : Replica}
    (h : Mirrors id s) : Mirrors id (s.step strategy localRegion a).1 := by
  unfold Replica.step
  split
  · next db hres =>
    have happly := a.applyEvent_of_result hres
    by_cases htype : a.event.eventType = .apiKeyUpsert
    · simp only [RegionDb.applyEvent, htype] at happly
      obtain ⟨row, hid, hsnapshot, -, hkeys⟩ := RegionDb.applyApiKeyUpsert_eq_ok happly
      have hputs := puts_upsertApiKey hkeys
      refine ⟨?_, hputs.oneHash h.oneHash⟩
      have hget := get?_upsertApiKey hkeys id
      by_cases hrow : row.id = id
      · have hevent : a.event.concerns id = true :=
          concerns_iff.mpr ⟨htype, hid.trans (by rw [hrow])⟩
        simp only [List.filter_append, List.filter_cons, hevent, if_true, List.filter_nil,
          List.getLast?_append, List.getLast?_singleton, Option.some_or]
        rw [hget, if_pos hrow]
        refine ⟨_, rfl, ?_⟩
        have hmirror := h.row
        split at hmirror
        · rw [hmirror]
          exact hsnapshot
        · obtain ⟨old, hold, hshown⟩ := hmirror
          rw [hold]
          exact ⟨hsnapshot.keyHash, hsnapshot.policies, hsnapshot.pathPrefixes, hsnapshot.expiresAt,
            hshown.isSuperuser, hshown.mfaRequired⟩
      · have hevent : a.event.concerns id = false := by
          refine Bool.eq_false_iff.mpr fun hc => hrow ?_
          exact Option.some.inj (hid.symm.trans (concerns_iff.mp hc).2)
        simp only [List.filter_append, List.filter_cons, hevent, Bool.false_eq_true, if_false,
          List.filter_nil, List.append_nil, hget, if_neg hrow]
        exact h.row
    · have hevent : a.event.concerns id = false :=
        Bool.eq_false_iff.mpr fun hc => htype (concerns_iff.mp hc).1
      have hkeys := RegionDb.applyEvent_apiKeys htype happly
      refine ⟨?_, by simpa only [hkeys] using h.oneHash⟩
      simp only [List.filter_append, List.filter_cons, hevent, Bool.false_eq_true, if_false,
        List.filter_nil, List.append_nil, hkeys]
      exact h.row
  · exact h

/-! ## Validation at home and at the peer -/

/-- The peer takes a key only if home does, and under the same restrictions. -/
def NoWider (hashKey : String → List UInt8) (now : Timestamp) (rawKey : String)
    (peer home : Backend) : Prop :=
  ∀ b result, validateKey hashKey now peer rawKey = .ok (b, result) →
    ∃ b' result', validateKey hashKey now home rawKey = .ok (b', result') ∧
      result.mfaRequired = result'.mfaRequired ∧ result.isSuperuser = result'.isSuperuser ∧
      result.policies = result'.policies ∧ result.pathPrefixes = result'.pathPrefixes

theorem NoWider.mfaRequired {now : Timestamp} {rawKey : String}
    {peer home : Backend} (h : NoWider hashKey now rawKey peer home) (flag : Bool)
    (hpeer : (validateKey hashKey now peer rawKey).toOption.map (·.2.mfaRequired) = some flag) :
    (validateKey hashKey now home rawKey).toOption.map (·.2.mfaRequired) = some flag := by
  obtain ⟨⟨b, result⟩, hok, rfl⟩ := Option.map_eq_some_iff.mp hpeer
  obtain ⟨b', result', hhome, hmfa, -⟩ := h b result (toOption_eq_some.mp hok)
  rw [hhome, hmfa]
  rfl

/-- For every history of a key at home and every peer that has applied the key's events in
their order, among any others: the peer is no wider than home exactly if a revocation with
a readable time was recorded, or the expiry is readable and past, or home takes the key too
and it is neither a superuser's nor bound to a second factor. -/
theorem restrictions_replicate_iff (region strategy localRegion : String)
    (hashKey : String → List UInt8) (now : Timestamp) {rawKey text : String}
    (hparse : parseKeyRandomPortion rawKey = .ok text) (home₀ : KeySource)
    (changes : List KeyChange) (hnew : home₀.keys.get? id = none)
    (hquiet : home₀.outbox.filter (·.concerns id) = []) (hhome : OneHash home₀.keys)
    (peer₀ : RegionDb) (as : List Application) (hpeer : peer₀.apiKeys.get? id = none)
    (hone : OneHash peer₀.apiKeys)
    (hrow : (run (KeySource.step region) home₀ changes).keys.get? id = some row)
    (hhash : hashKey rawKey = row.keyHash)
    (happlied : (run (Replica.step strategy localRegion) ⟨peer₀, []⟩ as).applied.filter
        (·.concerns id) =
      (run (KeySource.step region) home₀ changes).outbox.filter (·.concerns id)) :
    let home := run (KeySource.step region) home₀ changes
    let peer := run (Replica.step strategy localRegion) ⟨peer₀, []⟩ as
    NoWider hashKey now rawKey (.database peer.db.tenants peer.db.apiKeys)
        (.database home.tenants home.keys) ↔
      (∃ e ∈ home.outbox, Revokes id e) ∨ (row.expiresAt.bind jsonTime).any (· < now) = true ∨
        row.revokedAt = none ∧ row.expiresAt.any (· < now) = false ∧ row.isSuperuser = false ∧
          row.mfaRequired = false := by
  intro home peer
  have hrecorded : Recorded region id home :=
    run_invariant (KeySource.step region) (Recorded region id)
      (fun s c h => KeySource.recorded_step c h)
      ⟨fun _ => hquiet, fun row h => (Option.some_ne_none row (h.symm.trans hnew)).elim, hhome⟩
      changes
  have hmirrors : Mirrors id peer :=
    run_invariant (Replica.step strategy localRegion) (Mirrors id)
      (fun s a h => mirrors_step strategy localRegion a h) ⟨hpeer, hone⟩ as
  obtain ⟨eventId, createdAt, old, hold, hshown, hlast⟩ := hrecorded.some row hrow
  obtain ⟨hsameHash, hpolicies, hprefixes, hexpires, -, -⟩ := unchanged_iff.mp hshown
  have hmirror := hmirrors.row
  rw [happlied, hlast] at hmirror
  obtain ⟨copy, hcopy, hsnapshot⟩ := hmirror
  -- the peer's digest was read from the text that home wrote
  have hcopyHash : copy.keyHash = row.keyHash :=
    (Base64.eq_of_decode_encodeLines hsnapshot.keyHash).trans hsameHash.symm
  have hrevoked : copy.revokedAt = none ↔ ¬ ∃ e ∈ home.outbox, Revokes id e := by
    obtain ⟨events, hevents, hiff⟩ := isRevoked_run strategy localRegion id ⟨peer₀, []⟩ as
    have hfirst : ¬ RegionDb.IsRevoked peer₀ id := fun ⟨r, hr, _⟩ =>
      Option.some_ne_none r (hr.symm.trans hpeer)
    have hmem : ∀ e, Revokes id e → (e ∈ events ↔ e ∈ home.outbox) := by
      intro e he
      have hc : e.concerns id = true := concerns_iff.mpr ⟨he.type, he.key⟩
      have hiff : e ∈ peer.applied.filter (·.concerns id) ↔
          e ∈ home.outbox.filter (·.concerns id) := by rw [happlied]
      rw [List.mem_filter, List.mem_filter, and_iff_left hc, and_iff_left hc, hevents] at hiff
      exact hiff
    rw [← Option.not_isSome_iff_eq_none, not_iff_not]
    have hpeerRevoked : RegionDb.IsRevoked peer.db id ↔ copy.revokedAt.isSome = true := by
      simp [RegionDb.IsRevoked, hcopy]
    rw [← hpeerRevoked, hiff, or_iff_right hfirst]
    exact exists_congr fun e => and_congr_left fun he => hmem e he
  have hcopyExpires : copy.expiresAt = row.expiresAt.bind jsonTime := by
    rw [hsnapshot.expiresAt, hexpires]
    rfl
  have hatPeer := validateKey_iff hmirrors.oneHash hcopy (hhash.trans hcopyHash.symm) hparse
  have hatHome := validateKey_iff hrecorded.oneHash hrow hhash hparse
  constructor
  · intro hwider
    by_cases hrev : ∃ e ∈ home.outbox, Revokes id e
    · exact .inl hrev
    by_cases hexp : (row.expiresAt.bind jsonTime).any (· < now) = true
    · exact .inr (.inl hexp)
    obtain ⟨b, hb⟩ := (hatPeer peer.db.tenants now _).mpr
      ⟨⟨hrevoked.mpr hrev, by simpa only [hcopyExpires, Bool.not_eq_true] using hexp⟩, rfl⟩
    obtain ⟨b', result', hb', hmfa, hsuper, -, -⟩ := hwider b _ hb
    obtain ⟨⟨hrow₁, hrow₂⟩, rfl⟩ := (hatHome home.tenants now _).mp ⟨b', hb'⟩
    exact .inr (.inr ⟨hrow₁, hrow₂, hsuper.symm.trans hsnapshot.isSuperuser,
      hmfa.symm.trans hsnapshot.mfaRequired⟩)
  · intro h b result hb
    obtain ⟨⟨hlive, hvalid⟩, rfl⟩ := (hatPeer peer.db.tenants now _).mp ⟨b, hb⟩
    rcases h with hrev | hexp | ⟨hrow₁, hrow₂, hsuper, hmfa⟩
    · exact absurd hrev (hrevoked.mp hlive)
    · rw [← hcopyExpires, hvalid] at hexp
      cases hexp
    · obtain ⟨b', hb'⟩ := (hatHome home.tenants now _).mpr ⟨⟨hrow₁, hrow₂⟩, rfl⟩
      exact ⟨b', _, hb', hsnapshot.mfaRequired.trans hmfa.symm,
        hsnapshot.isSuperuser.trans hsuper.symm, hsnapshot.policies.trans hpolicies.symm,
        hsnapshot.pathPrefixes.trans hprefixes.symm⟩

/-! ## A key of `Key.acmeRegion` -/

def ciKey (mfaRequired : Bool) : ApiKeyRow where
  id := .nil
  tenantId := .nil
  name := "ci"
  keyHash := [0, 0, 0]
  keyPrefix := "key"
  pathPrefixes := []
  policies := ["admin"]
  createdBy := "admin"
  createdAt := 0
  expiresAt := none
  revokedAt := none
  rateLimitPerMinute := 60
  mfaRequired := mfaRequired

def acmeSource : KeySource := ⟨Key.acmeRegion.tenants, .empty, []⟩

def created (mfaRequired : Bool) : KeyChange := ⟨.insert (ciKey mfaRequired), .nil, 1⟩

def enrolled : KeyChange := ⟨.update .nil fun k => some { k with mfaRequired := true }, .nil, 2⟩

/-- The peer, which applies what home has recorded, is no wider. -/
def Replicates (changes : List KeyChange) : Prop :=
  let home := run (KeySource.step "eu") acmeSource changes
  let peer := run (Replica.step "lww" "us") ⟨Key.acmeRegion, []⟩
    (home.outbox.map fun e => { now := 3, event := e })
  NoWider (fun _ => [0, 0, 0]) 4 "wslv_key" (.database peer.db.tenants peer.db.apiKeys)
    (.database home.tenants home.keys)

theorem restrictions_replicate_of_plain : Replicates [created false] := by
  have hempty : OneHash .empty := fun k hk => (Table.not_mem_empty k hk).elim
  have hparse : parseKeyRandomPortion "wslv_key" = .ok "key" := rfl
  have hrow : (run (KeySource.step "eu") acmeSource [created false]).keys.get? .nil =
      some (ciKey false) := rfl
  exact (restrictions_replicate_iff "eu" "lww" "us" (fun _ => [0, 0, 0]) 4 hparse acmeSource
    [created false] rfl rfl hempty Key.acmeRegion _ rfl hempty hrow rfl rfl).mpr
    (.inr (.inr ⟨rfl, rfl, rfl, rfl⟩))

/-- A key that requires a second factor, from its creation or since the factor was
confirmed, requires none at the peer. -/
theorem restrictions_lost :
    ¬ Replicates [created true] ∧ ¬ Replicates [created false, enrolled] := by
  refine ⟨fun h => ?_, fun h => ?_⟩
  · exact absurd (h.mfaRequired false (by decide +kernel)) (by decide +kernel)
  · exact absurd (h.mfaRequired false (by decide +kernel)) (by decide +kernel)

end WslVault.ReplicationAgent
