import WslVault.ReplicationAgent.Verify.Updates

/-!
# Replicated API keys

An event for an API key carries a snapshot of its row, and a region may get the snapshots in
any order and more than once.
-/

namespace WslVault.ReplicationAgent

open Core Base Storage

def RegionDb.IsRevoked (r : RegionDb) (id : Uuid) : Prop :=
  ∃ row, r.apiKeys.get? id = some row ∧ row.revokedAt.isSome = true

/-- The event is a snapshot of the key that carries a time of revocation. -/
structure Revokes (id : Uuid) (e : ReplicationEvent) : Prop where
  type : e.eventType = .apiKeyUpsert
  key : (e.payload.texts.lookup "id").bind Uuid.ofPg = some id
  revoked : e.payload.revokedAt.isSome = true

/-- What a row has from the snapshot that was applied last; the superuser flag and the
second factor are not part of it. -/
structure Snapshot (e : ReplicationEvent) (row : ApiKeyRow) : Prop where
  keyHash : (e.payload.texts.lookup "key_hash_b64").bind Base64.decode = some row.keyHash
  policies : row.policies = e.payload.policies
  pathPrefixes : row.pathPrefixes = e.payload.pathPrefixes
  expiresAt : row.expiresAt = e.payload.expiresAt
  isSuperuser : row.isSuperuser = false
  mfaRequired : row.mfaRequired = false

/-! ## One event -/

namespace RegionDb

variable {strategy localRegion : String} {now : Timestamp} {freshId : Uuid}
  {elsewhere : Except ApplyError Unit} {r r' : RegionDb} {e : ReplicationEvent}

theorem applyApiKeyUpsert_eq_ok (h : r.applyApiKeyUpsert now e = .ok r') :
    ∃ row : ApiKeyRow, (e.payload.texts.lookup "id").bind Uuid.ofPg = some row.id ∧
      Snapshot e row ∧ row.revokedAt = e.payload.revokedAt ∧
      upsertApiKey r.db.tenants r.apiKeys row = .ok r'.apiKeys := by
  simp only [applyApiKeyUpsert, bind_eq_ok, pure_eq_ok] at h
  obtain ⟨text, htext, _, -, _, -, _, -, _, -, hashText, hhashText, hash, hhash, id, hid, tid, -,
    name, -, _, -, _, -, keys, hkeys, rfl⟩ := h
  refine ⟨_, ?_, ⟨?_, rfl, rfl, rfl, rfl, rfl⟩, rfl, mapError_eq_ok hkeys⟩
  · rw [ReplicationEvent.lookup_of_field htext]
    unfold castUuid at hid
    split at hid
    · next hcast =>
      cases hid
      exact hcast
    · cases hid
  · rw [ReplicationEvent.lookup_of_field hhashText]
    unfold keyHash at hhash
    split at hhash
    · next hdecode =>
      cases hhash
      exact hdecode
    · cases hhash

theorem isRevoked_applyApiKeyUpsert {id : Uuid} (htype : e.eventType = .apiKeyUpsert)
    (h : r.applyApiKeyUpsert now e = .ok r') : r'.IsRevoked id ↔ r.IsRevoked id ∨ Revokes id e := by
  obtain ⟨row, hid, -, hrevoked, hkeys⟩ := applyApiKeyUpsert_eq_ok h
  rw [IsRevoked, get?_upsertApiKey hkeys]
  by_cases hrow : row.id = id
  · subst hrow
    have hevent : Revokes row.id e ↔ row.revokedAt.isSome = true := by
      rw [hrevoked]
      exact ⟨Revokes.revoked, fun h => ⟨htype, hid, h⟩⟩
    rw [hevent, if_pos rfl, IsRevoked]
    cases r.apiKeys.get? row.id with
    | none => simp
    | some old =>
      have hmerge := row.revokedAt_merge old
      simpa using hmerge
  · have hevent : ¬ Revokes id e := fun hrev => hrow (Option.some.inj (hid.symm.trans hrev.key))
    rw [if_neg hrow, or_iff_left hevent, IsRevoked]

theorem acceptSecret_apiKeys {p : UpsertParams} (h : r.acceptSecret now freshId e p = .ok r') :
    r'.apiKeys = r.apiKeys := by
  unfold acceptSecret at h
  split at h
  · cases h
  · cases h
    rfl

theorem applySecretUpsert_apiKeys
    (h : r.applySecretUpsert strategy localRegion now freshId e = .ok r') :
    r'.apiKeys = r.apiKeys := by
  simp only [applySecretUpsert, bind_eq_ok] at h
  obtain ⟨_, -, _, -, _, -, _, -, _, -, h⟩ := h
  split at h
  · exact acceptSecret_apiKeys h
  · split at h
    · cases h
      rfl
    · cases h
      rfl
    · exact acceptSecret_apiKeys h

theorem applyVersions_apiKeys {change : Db → Uuid → List Int → Db}
    (h : r.applyVersions change e = .ok r') : r'.apiKeys = r.apiKeys := by
  simp only [applyVersions, bind_eq_ok] at h
  obtain ⟨_, -, _, -, h⟩ := h
  split at h
  · cases h
    rfl
  · simp only [bind_eq_ok] at h
    obtain ⟨_, -, h⟩ := h
    split at h
    · cases h
      rfl
    · cases h
      rfl

theorem applyPolicyUpdate_apiKeys (h : r.applyPolicyUpdate now e = .ok r') :
    r'.apiKeys = r.apiKeys := by
  simp only [applyPolicyUpdate, bind_eq_ok] at h
  obtain ⟨_, -, _, -, _, -, _, -, h⟩ := h
  split at h
  · unfold insertPolicy at h
    split at h
    · cases h
    · split at h
      · cases h
        rfl
      · cases h
  · split at h
    · cases h
      rfl
    · cases h
      rfl

theorem applyTenantUpdate_apiKeys (h : r.applyTenantUpdate now e = .ok r') :
    r'.apiKeys = r.apiKeys := by
  simp only [applyTenantUpdate, bind_eq_ok] at h
  obtain ⟨_, -, _, -, _, -, _, -, _, -, _, -, h⟩ := h
  split at h
  · simp only [bind_eq_ok] at h
    obtain ⟨_, -, _, -, h⟩ := h
    unfold insertTenant at h
    split at h
    · cases h
    · cases h
      rfl
  · split at h
    · cases h
      rfl
    · simp only [bind_eq_ok, pure_eq_ok] at h
      obtain ⟨_, -, _, -, rfl⟩ := h
      rfl

theorem applyEvent_apiKeys (htype : e.eventType ≠ .apiKeyUpsert)
    (h : r.applyEvent strategy localRegion now freshId elsewhere e = .ok r') :
    r'.apiKeys = r.apiKeys := by
  unfold applyEvent at h
  split at h
  · exact applySecretUpsert_apiKeys h
  · exact applyVersions_apiKeys h
  · exact applyVersions_apiKeys h
  · exact applyPolicyUpdate_apiKeys h
  · exact applyTenantUpdate_apiKeys h
  · next heq => exact absurd heq htype
  all_goals
    cases elsewhere <;> cases h <;> rfl

end RegionDb

theorem isRevoked_result {strategy localRegion : String} {a : Application} {r r' : RegionDb}
    {id : Uuid} (h : a.result strategy localRegion r = .ok r') :
    r'.IsRevoked id ↔ r.IsRevoked id ∨ Revokes id a.event := by
  have happly := a.applyEvent_of_result h
  by_cases htype : a.event.eventType = .apiKeyUpsert
  · simp only [RegionDb.applyEvent, htype] at happly
    exact RegionDb.isRevoked_applyApiKeyUpsert htype happly
  · have hevent : ¬ Revokes id a.event := fun hrev => htype hrev.type
    rw [or_iff_left hevent, RegionDb.IsRevoked, RegionDb.applyEvent_apiKeys htype happly,
      RegionDb.IsRevoked]

/-- No event takes a revocation back. -/
theorem isRevoked_run (strategy localRegion : String) (id : Uuid) (s : Replica)
    (as : List Application) :
    ∃ events, (run (Replica.step strategy localRegion) s as).applied = s.applied ++ events ∧
      ((run (Replica.step strategy localRegion) s as).db.IsRevoked id ↔
        s.db.IsRevoked id ∨ ∃ e ∈ events, Revokes id e) := by
  induction as generalizing s with
  | nil => exact ⟨[], (List.append_nil _).symm, by simp [run]⟩
  | cons a as ih =>
    rw [run]
    cases hres : a.result strategy localRegion s.db with
    | error err =>
      have hstep : (s.step strategy localRegion a).1 = s := by rw [Replica.step, hres]
      rw [hstep]
      exact ih s
    | ok db =>
      have hstep : (s.step strategy localRegion a).1 = ⟨db, s.applied ++ [a.event]⟩ := by
        rw [Replica.step, hres]
      rw [hstep]
      obtain ⟨events, happlied, hiff⟩ := ih ⟨db, s.applied ++ [a.event]⟩
      refine ⟨a.event :: events, by simpa using happlied, ?_⟩
      rw [hiff, isRevoked_result hres, List.exists_mem_cons_iff, or_assoc]

/-- In every run of a region that applies events in any order, a key for which a
revocation was applied is revoked from then on. At the end the key is revoked
exactly if it was so from the start or one of the events that were applied
carried a revocation; when no application failed those are all the events. -/
theorem revocation_is_permanent (strategy localRegion : String) (id : Uuid) (r : RegionDb)
    (as : List Application) : (∀ before after, as = before ++ after →
      (∃ e ∈ (run (Replica.step strategy localRegion) ⟨r, []⟩ before).applied, Revokes id e) →
        (run (Replica.step strategy localRegion) ⟨r, []⟩ as).db.IsRevoked id) ∧
    ((run (Replica.step strategy localRegion) ⟨r, []⟩ as).db.IsRevoked id ↔ r.IsRevoked id ∨
        ∃ e ∈ (run (Replica.step strategy localRegion) ⟨r, []⟩ as).applied, Revokes id e) ∧
    (Along (Replica.step strategy localRegion)
        (fun s a => (a.result strategy localRegion s.db).isOk = true) ⟨r, []⟩ as →
      ((run (Replica.step strategy localRegion) ⟨r, []⟩ as).db.IsRevoked id ↔
        r.IsRevoked id ∨ ∃ a ∈ as, Revokes id a.event)) := by
  have hrun : ∀ bs : List Application,
      (run (Replica.step strategy localRegion) ⟨r, []⟩ bs).db.IsRevoked id ↔ r.IsRevoked id ∨
          ∃ e ∈ (run (Replica.step strategy localRegion) ⟨r, []⟩ bs).applied, Revokes id e := by
    intro bs
    obtain ⟨events, happlied, hiff⟩ := isRevoked_run strategy localRegion id ⟨r, []⟩ bs
    rw [happlied]
    exact hiff
  refine ⟨?_, hrun as, fun hok => ?_⟩
  · rintro before after rfl hrevoked
    rw [run_append]
    obtain ⟨events, -, hiff⟩ := isRevoked_run strategy localRegion id
      (run (Replica.step strategy localRegion) ⟨r, []⟩ before) after
    exact hiff.mpr (.inl ((hrun before).mpr (.inr hrevoked)))
  · rw [hrun as, Replica.applied_run hok]
    simp

def apiKeyEvent (revokedAt : Option Timestamp) : ReplicationEvent where
  id := .nil
  eventType := .apiKeyUpsert
  sourceRegion := "eu"
  payload :=
    { texts := [("id", Uuid.nil.toString), ("tenant_id", Uuid.nil.toString), ("name", "ci"),
        ("key_prefix", "wslv_abc"), ("created_by", "admin"), ("key_hash_b64", "AAAA")]
      revokedAt := revokedAt }
  vectorClock := []
  createdAt := 0

theorem revocation_is_permanent_replayed : (run (Replica.step "lww" "us") ⟨Key.acmeRegion, []⟩
      [{ now := 1, event := apiKeyEvent none }, { now := 2, event := apiKeyEvent (some 5) },
        { now := 3, event := apiKeyEvent none }]).db.IsRevoked .nil := by
  refine ((revocation_is_permanent "lww" "us" .nil Key.acmeRegion _).2.2 ?_).mpr (.inr ?_)
  · exact ⟨rfl, rfl, rfl, trivial⟩
  · exact ⟨_, List.mem_cons_of_mem _ List.mem_cons_self, ⟨rfl, rfl, rfl⟩⟩

end WslVault.ReplicationAgent
