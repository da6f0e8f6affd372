import WslVault.IdentityService.Login

/-!
# Records of keys on both backends

A backend is looked at through the records that it finds by their digests. Every call but
the creation of a key leaves the records there, with their ids, and takes back neither a
revocation nor a required second factor (`Backend.Keeps`).
-/

namespace WslVault.IdentityService

open Core Base Storage ApiKeyManager

structure ApiKeyRecord.Evolved (r r' : ApiKeyRecord) : Prop where
  id : r'.id = r.id
  mfaRequired : r.mfaRequired = true → r'.mfaRequired = true
  revokedAt : r.revokedAt.isSome = true → r'.revokedAt.isSome = true

theorem ApiKeyRecord.Evolved.refl (r : ApiKeyRecord) : r.Evolved r :=
  ⟨rfl, fun h => h, fun h => h⟩

variable {r : ApiKeyRecord} {tenants : TenantTable} {h : List UInt8}

theorem ApiKeyRecord.Evolved.trans {r' r'' : ApiKeyRecord} (h : r.Evolved r')
    (h' : r'.Evolved r'') : r.Evolved r'' :=
  ⟨h'.id.trans h.id, fun hr => h'.mfaRequired (h.mfaRequired hr),
    fun hr => h'.revokedAt (h.revokedAt hr)⟩

namespace Backend

def knows (b : Backend) (id : Uuid) : Bool :=
  match b with
  | .database _ keys => (keys.get? id).isSome
  | .memory _ idToHash => (idToHash.lookup id).isSome

def WellFormed : Backend → Prop
  | .database _ keys => (keys.rows.map ApiKeyRow.keyHash).Nodup
  | .memory byHash idToHash => ∀ h r, byHash.lookup h = some r → idToHash.lookup r.id = some h

structure Keeps (b b' : Backend) : Prop where
  records : ∀ h, Option.Rel ApiKeyRecord.Evolved (findByHash b h) (findByHash b' h)
  wellFormed : b.WellFormed → b'.WellFormed
  knows : ∀ id, b.knows id = true → b'.knows id = true

namespace Keeps

variable {b b' : Backend} {h : List UInt8} {r : ApiKeyRecord}

theorem refl (b : Backend) : Keeps b b where
  records := fun h => by
    cases findByHash b h with
    | none => exact .none
    | some r => exact .some (.refl r)
  wellFormed := fun hb => hb
  knows := fun _ hid => hid

theorem after (hkeeps : Keeps b b') (hr : findByHash b h = some r) :
    ∃ r', findByHash b' h = some r' ∧ r.Evolved r' := by
  have hrel := hkeeps.records h
  rw [hr] at hrel
  generalize findByHash b' h = o at hrel
  cases hrel with
  | some hevolved => exact ⟨_, rfl, hevolved⟩

theorem before (hkeeps : Keeps b b') (hr : findByHash b' h = some r) :
    ∃ r', findByHash b h = some r' ∧ r'.Evolved r := by
  have hrel := hkeeps.records h
  rw [hr] at hrel
  generalize findByHash b h = o at hrel
  cases hrel with
  | some hevolved => exact ⟨_, rfl, hevolved⟩

end Keeps

theorem keeps_update {keys : ApiKeyTable} {p : ApiKeyRow → Bool}
    {f : ApiKeyRow → ApiKeyRow} (hf : ∀ k, (f k).id = k.id) (hhash : ∀ k, (f k).keyHash = k.keyHash)
    (hrow : ∀ k, (ApiKeyRecord.ofRow k).Evolved (.ofRow (f k))) :
    Keeps (.database tenants keys) (.database tenants (keys.update p f hf)) where
  records := by
    intro h
    simp only [findByHash, ApiKeyStore.findByHash]
    rw [Table.find?_update hf fun k => by rw [hhash]]
    cases keys.rows.find? fun k => k.keyHash == h with
    | none => exact .none
    | some k =>
      refine .some ?_
      dsimp only
      split
      · exact hrow k
      · exact .refl _
  wellFormed := by
    intro hwf
    have hsame : (keys.update p f hf).rows.map ApiKeyRow.keyHash =
        keys.rows.map ApiKeyRow.keyHash :=
      Table.map_rows_update hf fun k _ _ => hhash k
    rw [WellFormed, hsame]
    exact hwf
  knows := by
    intro id hid
    simpa only [knows, Table.get?_update, Option.isSome_map] using hid

theorem keeps_insert {byHash : AList (fun _ : List UInt8 => ApiKeyRecord)}
    {idToHash : AList (fun _ : Uuid => List UInt8)} {r' : ApiKeyRecord}
    (hr : byHash.lookup h = some r) (hrow : r.Evolved r') :
    Keeps (.memory byHash idToHash) (.memory (byHash.insert h r') idToHash) where
  records := by
    intro h'
    simp only [findByHash, lookup_insert_eq]
    split
    · next heq =>
      subst heq
      rw [hr]
      exact .some hrow
    · exact (Keeps.refl (.memory byHash idToHash)).records h'
  wellFormed := by
    intro hwf
    refine forall_lookup_insert hwf ?_
    rw [hrow.id]
    exact hwf h r hr
  knows := fun _ hid => hid

end Backend

open Backend

variable {hashKey : String → List UInt8} {now : Timestamp} {b b' : Backend} {rawKey : String}
  {keyId : Uuid} {tenantId : String}

/-! ## Calls that keep the records -/

variable {result : ApiKeyValidationResult}

theorem validateKey_eq_ok :
    validateKey hashKey now b rawKey = .ok (b', result) ↔
      (∃ text, parseKeyRandomPortion rawKey = .ok text) ∧
        ∃ record, findByHash b (hashKey rawKey) = some record ∧ record.revokedAt = none ∧
          record.expiresAt.any (· < now) = false ∧
          b' = touch b now (hashKey rawKey) record ∧ result = validationResult record := by
  simp only [validateKey, bind_eq_ok, okOr_eq_ok, refuseIf_eq_ok, pure_eq_ok, Prod.mk.injEq,
    Bool.not_eq_true, Option.isSome_eq_false_iff, Option.isNone_iff_eq_none]
  constructor
  · rintro ⟨text, htext, record, hrecord, -, hrevoked, -, hexpired, rfl, rfl⟩
    exact ⟨⟨text, htext⟩, record, hrecord, hrevoked, hexpired, rfl, rfl⟩
  · rintro ⟨⟨text, htext⟩, record, hrecord, hrevoked, hexpired, rfl, rfl⟩
    exact ⟨text, htext, record, hrecord, (), hrevoked, (), hexpired, rfl, rfl⟩

theorem keeps_touchLastUsed (tenants : TenantTable) (keys : ApiKeyTable) (now : Timestamp)
    (id tenantId : Uuid) : Backend.Keeps (.database tenants keys)
      (.database tenants (ApiKeyStore.touchLastUsed keys now id tenantId)) :=
  keeps_update _ (fun _ => rfl) fun _ => ⟨rfl, fun h => h, fun h => h⟩

theorem keeps_validateKey
    (h : validateKey hashKey now b rawKey = .ok (b', result)) : Backend.Keeps b b' := by
  obtain ⟨-, record, hrecord, -, -, rfl, -⟩ := validateKey_eq_ok.mp h
  cases b with
  | database tenants keys =>
    unfold touch
    dsimp only
    split
    · exact keeps_touchLastUsed _ _ _ _ _
    · exact .refl _
  | memory byHash idToHash => exact keeps_insert hrecord ⟨rfl, fun h => h, fun h => h⟩

theorem keeps_requireMfa (b : Backend) (keyId : Uuid) :
    Backend.Keeps b (Login.LoginSystem.requireMfa b keyId) := by
  cases b with
  | database tenants keys =>
    exact keeps_update _ (fun _ => rfl) fun _ => ⟨rfl, fun _ => rfl, fun h => h⟩
  | memory byHash idToHash => exact .refl _

variable {keys : ApiKeyTable}

/-- What a revocation in the table needs, and what it leaves: a row that is revoked is not
changed. -/
theorem revokeKey_database_eq_ok : revokeKey now (.database tenants keys) keyId tenantId = .ok b' ↔
      ∃ tid, ApiKeyStore.resolveTenantId tenants tenantId = .ok tid ∧
        (ApiKeyStore.findById keys keyId tid).isSome = true ∧
        b' = .database tenants (ApiKeyStore.revoke keys now keyId tid).1 := by
  simp only [revokeKey, bind_eq_ok, mapError_eq_ok_iff]
  refine exists_congr fun tid => and_congr_right fun _ => ?_
  by_cases hany : (ApiKeyStore.revoke keys now keyId tid).2 = true
  · rw [if_pos hany, pure_eq_ok, eq_comm]
    refine (and_iff_right ?_).symm
    obtain ⟨k, hk, hactive⟩ := List.any_eq_true.mp hany
    exact List.find?_isSome.mpr ⟨k, hk, (Bool.and_eq_true_iff.mp hactive).1⟩
  · rw [if_neg hany]
    have hsame : (ApiKeyStore.revoke keys now keyId tid).1 = keys := by
      refine Table.ext_rows ((List.map_congr_left fun k hk => ?_).trans (List.map_id _))
      exact if_neg fun hactive => hany (List.any_eq_true.mpr ⟨k, hk, hactive⟩)
    simp only [bind_eq_ok, okOr_eq_ok, pure_eq_ok, hsame, Option.isSome_iff_exists]
    constructor
    · rintro ⟨k, hk, rfl⟩
      exact ⟨⟨k, hk⟩, rfl⟩
    · rintro ⟨⟨k, hk⟩, rfl⟩
      exact ⟨k, hk, rfl⟩

theorem revokeKey_memory_eq_ok {byHash : AList (fun _ : List UInt8 => ApiKeyRecord)}
    {idToHash : AList (fun _ : Uuid => List UInt8)} :
    revokeKey now (.memory byHash idToHash) keyId tenantId = .ok b' ↔
      ∃ h r, idToHash.lookup keyId = some h ∧ byHash.lookup h = some r ∧ r.tenantId = tenantId ∧
        b' = .memory (if r.revokedAt.isSome then byHash
          else byHash.insert h { r with revokedAt := some now }) idToHash := by
  simp only [revokeKey, bind_eq_ok, okOr_eq_ok, refuseIf_eq_ok, not_not]
  constructor
  · rintro ⟨h, hh, r, hr, -, htenant, hb⟩
    refine ⟨h, r, hh, hr, htenant, ?_⟩
    split at hb <;> next hrevoked => cases hb; simp [hrevoked]
  · rintro ⟨h, r, hh, hr, htenant, rfl⟩
    refine ⟨h, hh, r, hr, (), htenant, ?_⟩
    split <;> rfl

theorem keeps_revokeKey (h : revokeKey now b keyId tenantId = .ok b') : Backend.Keeps b b' := by
  cases b with
  | database tenants keys =>
    obtain ⟨tid, -, -, rfl⟩ := revokeKey_database_eq_ok.mp h
    refine keeps_update ?_ ?_ ?_ <;> intro k
    · rfl
    · rfl
    · exact ⟨rfl, fun h => h, fun _ => rfl⟩
  | memory byHash idToHash =>
    obtain ⟨hash, r, -, hr, -, rfl⟩ := revokeKey_memory_eq_ok.mp h
    split
    · exact .refl _
    · exact keeps_insert hr ⟨rfl, fun h => h, fun _ => rfl⟩

/-- Nothing with this id is valid, and the id stays given. -/
structure Backend.Revoked (b : Backend) (keyId : Uuid) : Prop where
  knows : b.knows keyId = true
  records : ∀ h r, findByHash b h = some r → r.id = keyId → r.revokedAt.isSome = true

theorem Backend.Revoked.keeps (h : b.Revoked keyId) (hkeeps : Backend.Keeps b b') :
    b'.Revoked keyId where
  knows := hkeeps.knows keyId h.knows
  records := by
    intro hash r hr hid
    obtain ⟨r', hr', hevolved⟩ := hkeeps.before hr
    exact hevolved.revokedAt (h.records hash r' hr' (hevolved.id.symm.trans hid))

theorem mem_of_findByHash (hr : findByHash (.database tenants keys) h = some r) :
    ∃ k ∈ keys, r = .ofRow k := by
  obtain ⟨k, hk, rfl⟩ := Option.map_eq_some_iff.mp hr
  exact ⟨k, List.mem_of_find?_eq_some hk, rfl⟩

theorem findById_eq_some {id tid : Uuid} {k : ApiKeyRow}
    (h : ApiKeyStore.findById keys id tid = some k) : k ∈ keys ∧ k.id = id ∧ k.tenantId = tid := by
  rw [ApiKeyStore.findById] at h
  have hmatch := List.find?_some h
  simp only [Bool.and_eq_true, beq_iff_eq] at hmatch
  exact ⟨List.mem_of_find?_eq_some h, hmatch⟩

theorem revoked_of_revokeKey (hwf : b.WellFormed)
    (h : revokeKey now b keyId tenantId = .ok b') : b'.Revoked keyId := by
  cases b with
  | database tenants keys =>
    obtain ⟨tid, -, hsome, rfl⟩ := revokeKey_database_eq_ok.mp h
    obtain ⟨k, hk⟩ := Option.isSome_iff_exists.mp hsome
    obtain ⟨hmem, hid, htid⟩ := findById_eq_some hk
    constructor
    · rw [knows, ApiKeyStore.revoke, Table.get?_update, Option.isSome_map,
        Table.get?_eq_some.mpr ⟨hmem, hid⟩]
      rfl
    · intro hash r hr hrid
      obtain ⟨k', hk', rfl⟩ := mem_of_findByHash hr
      obtain ⟨k₀, hk₀, rfl⟩ := List.mem_map.mp hk'
      -- the row with this id is the one of the tenant
      have hid₀ : k₀.id = keyId := by
        rw [← hrid, ApiKeyRecord.ofRow]
        dsimp only
        split <;> rfl
      cases keys.eq_of_key hk₀ hmem (hid₀.trans hid.symm)
      cases hrevoked : k.revokedAt <;> simp [ApiKeyRecord.ofRow, hid, htid, hrevoked]
  | memory byHash idToHash =>
    obtain ⟨keyHash, record, hid, hrecord, -, rfl⟩ := revokeKey_memory_eq_ok.mp h
    refine ⟨by rw [knows, hid]; rfl, fun hash r hr hrid => ?_⟩
    -- a record with this id is the one under the digest that was looked up
    have hsame : ∀ r, byHash.lookup hash = some r → r.id = keyId → hash = keyHash := by
      intro r hr hrid
      have hhash := hwf hash r hr
      rw [hrid, hid] at hhash
      exact (Option.some.inj hhash).symm
    simp only [findByHash] at hr
    split at hr
    · next hrevoked =>
      rw [hsame r hr hrid] at hr
      cases hrecord.symm.trans hr
      exact hrevoked
    · obtain ⟨-, rfl⟩ | ⟨hne, hr⟩ := lookup_insert_cases hr
      · rfl
      · exact absurd (hsame r hr hrid) hne

/-- Nobody has an id that is drawn. The table itself refuses one that is taken. -/
def Backend.freshId (b : Backend) (id : Uuid) : Bool :=
  match b with
  | .database _ _ => true
  | .memory _ idToHash => (idToHash.lookup id).isNone

structure Backend.Adds (b b' : Backend) (r : ApiKeyRecord) : Prop where
  records : ∀ h, findByHash b' h = if h = r.keyHash then some r else findByHash b h
  isNew : b.knows r.id = false
  knows : ∀ id, b'.knows id = (b.knows id || id == r.id)
  wellFormed : b.WellFormed → b'.WellFormed

theorem createKey_adds {draw : Draw} {req : ApiKeyCreateRequest} {createdBy : String}
    {response : ApiKeyCreateResponse}
    (h : createKey hashKey draw b req createdBy = .ok (b', response))
    (hfresh : b.freshId draw.id = true) :
    ∃ r, b.Adds b' r := by
  cases b with
  | database tenants keys =>
    simp only [createKey, bind_eq_ok, pure_eq_ok, Prod.mk.injEq] at h
    obtain ⟨-, -, tid, -, -, -, keys', hkeys, rfl, rfl⟩ := h
    obtain ⟨stored, -, hfree, hrows, -⟩ := ApiKeyStore.insert_eq_ok.mp (mapError_eq_ok hkeys)
    have hins := Table.insert?_eq_some.mpr ⟨fun k hk hid => hfree k hk (.inl hid), hrows⟩
    refine ⟨.ofRow stored, { records := ?_, isNew := ?_, knows := ?_, wellFormed := ?_ }⟩
    · intro h
      simp only [findByHash, ApiKeyStore.findByHash, hrows, List.find?_append]
      by_cases heq : h = stored.keyHash
      · have hnone : keys.rows.find? (fun k => k.keyHash == stored.keyHash) = none :=
          List.find?_eq_none.mpr fun k hk hsame => hfree k hk (.inr (.inl (eq_of_beq hsame)))
        simp [heq, hnone, ApiKeyRecord.ofRow]
      · have hother : (stored.keyHash == h) = false :=
          beq_eq_false_iff_ne.mpr fun hsame => heq hsame.symm
        simp [heq, hother, ApiKeyRecord.ofRow]
    · simp only [knows, Option.isSome_eq_false_iff, Option.isNone_iff_eq_none]
      exact Table.get?_eq_none.mpr fun k hk hid => hfree k hk (.inl hid)
    · intro id
      simp only [knows, Table.get?_insert? hins, ApiKeyRecord.ofRow]
      split
      · next hsame => simp [hsame]
      · next hne => simp [beq_eq_false_iff_ne.mpr fun heq : id = stored.id => hne heq.symm]
    · intro hwf
      simp only [WellFormed, hrows, List.map_append, List.map_cons, List.map_nil]
      refine List.nodup_append_comm.mp (List.nodup_cons.mpr ⟨?_, hwf⟩)
      intro hmem
      obtain ⟨k, hk, hsame⟩ := List.mem_map.mp hmem
      exact hfree k hk (.inr (.inl hsame))
  | memory byHash idToHash =>
    simp only [createKey, bind_eq_ok, pure_eq_ok, Prod.mk.injEq] at h
    obtain ⟨-, -, -, -, rfl, rfl⟩ := h
    have hnone : idToHash.lookup draw.id = none := Option.isNone_iff_eq_none.mp hfresh
    refine ⟨(mint hashKey draw req (Text.trim req.name) createdBy).2,
      { records := ?_, isNew := ?_, knows := ?_, wellFormed := ?_ }⟩
    · exact fun h => lookup_insert_eq _ _ _ _
    · simp [knows, mint, hnone]
    · intro id
      simp only [knows, lookup_insert_eq]
      split
      · next hid => simp [hid]
      · next hid => simp [beq_eq_false_iff_ne.mpr hid]
    · intro hwf h r hr
      rw [lookup_insert_eq]
      obtain ⟨rfl, rfl⟩ | ⟨-, hr⟩ := lookup_insert_cases hr
      · rw [if_pos rfl]
      · have hid := hwf h r hr
        rw [if_neg, hid]
        intro heq
        rw [heq] at hid
        exact absurd (hnone.symm.trans hid) (by simp)

theorem Backend.Revoked.adds (h : b.Revoked keyId) (hadds : b.Adds b' r) :
    b'.Revoked keyId where
  knows := by rw [hadds.knows, h.knows, Bool.true_or]
  records := by
    intro hash k hk hid
    rw [hadds.records] at hk
    split at hk
    · cases hk
      have hnew := hadds.isNew
      rw [hid, h.knows] at hnew
      cases hnew
    · exact h.records hash k hk hid

end WslVault.IdentityService
