import WslVault.IdentityService.Verify.Login

/-!
# Rotation of a key

`rotate_key` reads the old key, revokes it and creates the new one, in calls of which each
may fail. It reads a dead key as well.
-/

namespace WslVault.IdentityService

open Core Base Storage ApiKeyManager Backend

variable {hashKey : String → List UInt8} {now : Timestamp} {b b' : Backend} {keyId : Uuid}
  {tenantId : String} {old : ApiKeyRecord}

/-- The digest that the memory has for an id is the one of that key. -/
def Backend.Indexed : Backend → Prop
  | .database _ _ => True
  | .memory byHash idToHash => ∀ id h r, idToHash.lookup id = some h → byHash.lookup h = some r →
    r.id = id

variable {tenants : TenantTable} {keys : ApiKeyTable}

theorem findByHash_of_mem {k : ApiKeyRow}
    (hwf : (Backend.database tenants keys).WellFormed) (hk : k ∈ keys) :
    ApiKeyStore.findByHash keys k.keyHash = some k := by
  cases hfind : ApiKeyStore.findByHash keys k.keyHash with
  | none => exact absurd (beq_self_eq_true _) (List.find?_eq_none.mp hfind k hk)
  | some k' =>
    rw [ApiKeyStore.findByHash] at hfind
    have hsame := List.find?_some hfind
    rw [List.inj_on_of_nodup_map hwf (List.mem_of_find?_eq_some hfind) hk (eq_of_beq hsame)]

theorem findByHash_of_findById (hwf : b.WellFormed) (hindexed : b.Indexed)
    (h : findById b keyId tenantId = .ok old) :
    old.id = keyId ∧ ∃ hash, findByHash b hash = some old := by
  cases b with
  | database tenants keys =>
    simp only [findById, bind_eq_ok, okOr_eq_ok, pure_eq_ok] at h
    obtain ⟨tid, -, k, hk, rfl⟩ := h
    obtain ⟨hmem, hid, -⟩ := findById_eq_some hk
    refine ⟨hid, k.keyHash, ?_⟩
    exact congrArg (Option.map ApiKeyRecord.ofRow) (findByHash_of_mem hwf hmem)
  | memory byHash idToHash =>
    simp only [findById, bind_eq_ok, okOr_eq_ok, pure_eq_ok] at h
    obtain ⟨hash, hhash, record, hrecord, -, -, rfl⟩ := h
    exact ⟨hindexed keyId hash record hhash hrecord, hash, hrecord⟩

theorem revokeKey_of_findById (now : Timestamp) (h : findById b keyId tenantId = .ok old) :
    ∃ b', revokeKey now b keyId tenantId = .ok b' := by
  cases b with
  | database tenants keys =>
    simp only [findById, bind_eq_ok, okOr_eq_ok, pure_eq_ok, mapError_eq_ok_iff] at h
    obtain ⟨tid, htid, k, hk, -⟩ := h
    exact ⟨_, revokeKey_database_eq_ok.mpr ⟨tid, htid, Option.isSome_of_eq_some hk, rfl⟩⟩
  | memory byHash idToHash =>
    simp only [findById, bind_eq_ok, okOr_eq_ok, refuseIf_eq_ok, not_not] at h
    obtain ⟨hash, hhash, record, hrecord, -, htenant, -⟩ := h
    exact ⟨_, revokeKey_memory_eq_ok.mpr ⟨hash, record, hhash, hrecord, htenant, rfl⟩⟩

theorem findByHash_revoke (keys : ApiKeyTable) (now : Timestamp) (id tid : Uuid)
    (hash : List UInt8) : ApiKeyStore.findByHash (ApiKeyStore.revoke keys now id tid).1 hash =
      (ApiKeyStore.findByHash keys hash).map fun k =>
        if k.id == id && k.tenantId == tid && k.revokedAt.isNone then
          { k with revokedAt := some now } else k := by
  unfold ApiKeyStore.findByHash ApiKeyStore.revoke
  refine Table.find?_update ?_ ?_ <;> intro k <;> rfl

variable {r : ApiKeyRecord} {hash : List UInt8} {draw : Draw} {req : ApiKeyCreateRequest}
  {createdBy : String}

theorem live_revokeKey_iff (hwf : b.WellFormed) (hindexed : b.Indexed)
    (h : revokeKey now b keyId tenantId = .ok b') (hlive : r.revokedAt = none) :
    findByHash b' hash = some r ↔ findByHash b hash = some r ∧ r.id ≠ keyId := by
  have hrevoked := revoked_of_revokeKey hwf h
  have hother : findByHash b' hash = some r → r.id ≠ keyId := by
    intro hr hid
    have hdead := hrevoked.records hash r hr hid
    rw [hlive] at hdead
    cases hdead
  suffices hsame : r.id ≠ keyId → (findByHash b' hash = some r ↔ findByHash b hash = some r) by
    exact ⟨fun hr => ⟨(hsame (hother hr)).mp hr, hother hr⟩, fun hr => (hsame hr.2).mpr hr.1⟩
  intro hid
  cases b with
  | database tenants keys =>
    obtain ⟨tid, -, -, rfl⟩ := revokeKey_database_eq_ok.mp h
    simp only [findByHash, findByHash_revoke, Option.map_map]
    cases ApiKeyStore.findByHash keys hash with
    | none => simp
    | some k =>
      simp only [Option.map_some, Function.comp_apply, Option.some.injEq]
      split
      · next hactive =>
        simp only [Bool.and_eq_true, beq_iff_eq] at hactive
        constructor
        · rintro rfl
          cases hlive
        · rintro rfl
          exact absurd hactive.1.1 hid
      · rfl
  | memory byHash idToHash =>
    obtain ⟨h₀, record, hhash, hrecord, -, rfl⟩ := revokeKey_memory_eq_ok.mp h
    simp only [findByHash]
    split
    · rfl
    · rw [lookup_insert_eq]
      split
      · next heq =>
        subst heq
        constructor
        · rintro ⟨⟩
          cases hlive
        · intro hr
          cases hrecord.symm.trans hr
          exact absurd (hindexed keyId hash _ hhash hrecord) hid
      · rfl

/-! ## Room for the new key -/

/-- The new key can be stored once the old one is revoked: no other live key of the tenant has
its name, and the table takes it. -/
def Room (hashKey : String → List UInt8) (draw : Draw) (keyId : Uuid) (old : ApiKeyRecord)
    (b : Backend) : Prop :=
  Text.trim old.name ≠ "" ∧
  (∀ hash r, findByHash b hash = some r → r.id ≠ keyId → r.revokedAt = none →
    r.tenantId = old.tenantId → r.name ≠ Text.trim old.name) ∧
  match b with
  | .database _ _ =>
    (Text.trim old.name).toList.length ≤ 255 ∧ (varchar 255 old.createdBy).toOption.isSome ∧
      b.knows draw.id = false ∧ findByHash b (hashKey (generateKey draw.secret)) = none
  | .memory _ _ => True

theorem getLast?_trim {text : String} (h : Text.trim text ≠ "") :
    ∃ c, (Text.trim text).toList.getLast? = some c ∧ c ≠ ' ' := by
  generalize hcs : (text.toList.dropWhile Text.isWhitespace).reverse.dropWhile
    Text.isWhitespace = cs
  have htrim : (Text.trim text).toList = cs.reverse := by
    rw [Text.trim, hcs, String.toList_ofList]
  have hhead := List.head?_dropWhile_not Text.isWhitespace
    (text.toList.dropWhile Text.isWhitespace).reverse
  rw [hcs] at hhead
  rw [htrim, List.getLast?_reverse]
  cases cs with
  | nil => exact absurd (String.toList_inj.mp htrim) h
  | cons c cs =>
    refine ⟨c, rfl, ?_⟩
    rintro rfl
    simp [Text.isWhitespace] at hhead

theorem get?_of_resolveTenantId {reference : String} {tid : Uuid}
    (h : ApiKeyStore.resolveTenantId tenants reference = .ok tid) :
    (tenants.get? tid).isSome = true := by
  unfold ApiKeyStore.resolveTenantId at h
  dsimp only at h
  split at h
  · next t ht =>
    cases h
    exact Option.isSome_of_eq_some (Table.get?_eq_some.mpr ⟨List.mem_of_find?_eq_some ht, rfl⟩)
  · cases h

theorem createKey_database_isOk_iff :
    (∃ c, createKey hashKey draw (.database tenants keys) req createdBy = .ok c) ↔
      Text.trim req.name ≠ "" ∧ ∃ tid,
        ApiKeyStore.resolveTenantId tenants req.tenantId = .ok tid ∧
        ApiKeyStore.activeNameExists keys tid (Text.trim req.name) = false ∧
        (Text.trim req.name).toList.length ≤ 255 ∧ (varchar 255 createdBy).toOption.isSome = true ∧
        (Backend.database tenants keys).knows draw.id = false ∧
        findByHash (.database tenants keys) (hashKey (generateKey draw.secret)) = none := by
  have hprefix : (mint hashKey draw req (Text.trim req.name) createdBy).2.keyPrefix.toList.length ≤
      12 := by
    simp only [mint, String.toList_ofList, List.length_take]
    omega
  simp only [createKey, bind_eq_ok, refuseIf_eq_ok, mapError_eq_ok_iff, pure_eq_ok,
    Bool.not_eq_true]
  constructor
  · rintro ⟨c, -, hname, tid, htid, -, hactive, keys', hkeys, -⟩
    obtain ⟨stored, hstored, hfree, -, -⟩ := ApiKeyStore.insert_eq_ok.mp hkeys
    obtain ⟨last, hlast, hblank⟩ := getLast?_trim hname
    simp only [ApiKeyStore.storedRow, bind_eq_ok, pure_eq_ok] at hstored
    obtain ⟨name, hlen, keyPrefix, _, by', hby, rfl⟩ := hstored
    refine ⟨hname, tid, htid, hactive, ((varchar_eq_ok hlast hblank).mp hlen).1, ?_, ?_, ?_⟩
    · exact Option.isSome_of_eq_some (toOption_eq_some.mpr hby)
    · simp only [knows, Option.isSome_eq_false_iff, Option.isNone_iff_eq_none]
      exact Table.get?_eq_none.mpr fun k hk hid => hfree k hk (.inl hid)
    · refine Option.map_eq_none_iff.mpr (List.find?_eq_none.mpr fun k hk hsame => ?_)
      exact hfree k hk (.inr (.inl (eq_of_beq hsame)))
  · rintro ⟨hname, tid, htid, hactive, hlen, hby, hid, hhash⟩
    obtain ⟨by', hby⟩ := Option.isSome_iff_exists.mp hby
    set row := (mint hashKey draw { req with tenantId := tid.toString, name := Text.trim req.name }
      (Text.trim req.name) createdBy).2.row tid with hrow
    obtain ⟨stored, hstored, hmade⟩ : ∃ stored, ApiKeyStore.storedRow row = .ok stored ∧
        stored = { row with
          createdBy := by', mfaRequired := row.mfaRequired || row.isSuperuser } := by
      refine ⟨_, ?_, rfl⟩
      simp only [ApiKeyStore.storedRow, bind_eq_ok, pure_eq_ok]
      exact ⟨_, varchar_of_le hlen, _, varchar_of_le hprefix, _, toOption_eq_some.mp hby, rfl⟩
    simp only [knows, Option.isSome_eq_false_iff, Option.isNone_iff_eq_none] at hid
    have hfree : ∀ k ∈ keys, ¬ k.Clash stored := by
      rw [hmade]
      rintro k hk (hsame | hsame | ⟨hlive, -, htenant, hsame⟩)
      · exact Table.get?_eq_none.mp hid k hk hsame
      · have hnone := List.find?_eq_none.mp (Option.map_eq_none_iff.mp hhash) k hk
        exact hnone (beq_iff_eq.mpr hsame)
      · have hnone := List.any_eq_false.mp hactive k hk
        simp only [htenant, hsame, hlive] at hnone
        simp [hrow, mint, ApiKeyRecord.row] at hnone
    have hins : ∃ keys', keys.insert? stored = some keys' := by
      refine Option.ne_none_iff_exists'.mp fun hnone => ?_
      obtain ⟨k, hk, hsame⟩ := Table.insert?_eq_none.mp hnone
      exact hfree k hk (.inl hsame)
    obtain ⟨keys', hins⟩ := hins
    refine ⟨_, (), hname, tid, htid, (), hactive, keys', ?_, rfl⟩
    refine ApiKeyStore.insert_eq_ok.mpr
      ⟨stored, hstored, hfree, (Table.insert?_eq_some.mp hins).2, ?_⟩
    rw [hmade]
    exact get?_of_resolveTenantId htid

theorem createKey_memory_isOk_iff {byHash : AList (fun _ : List UInt8 => ApiKeyRecord)}
    {idToHash : AList (fun _ : Uuid => List UInt8)} :
    (∃ c, createKey hashKey draw (.memory byHash idToHash) req createdBy = .ok c) ↔
      Text.trim req.name ≠ "" ∧ ∀ hash r, byHash.lookup hash = some r → r.revokedAt = none →
        r.tenantId = req.tenantId → r.name ≠ Text.trim req.name := by
  simp only [createKey, bind_eq_ok, refuseIf_eq_ok, pure_eq_ok]
  have hnone : ¬ (byHash.entries.any fun e => e.2.tenantId == req.tenantId &&
      e.2.name == Text.trim req.name && e.2.revokedAt.isNone) = true ↔
      ∀ hash r, byHash.lookup hash = some r → r.revokedAt = none → r.tenantId = req.tenantId →
        r.name ≠ Text.trim req.name := by
    simp only [List.any_eq_true, Bool.and_eq_true, beq_iff_eq, Option.isNone_iff_eq_none]
    constructor
    · intro hno hash r hr hlive htenant hname
      exact hno ⟨⟨hash, r⟩, AList.mem_lookup_iff.mp hr, ⟨htenant, hname⟩, hlive⟩
    · rintro hfree ⟨⟨hash, r⟩, hmem, ⟨htenant, hname⟩, hlive⟩
      exact hfree hash r (AList.mem_lookup_iff.mpr hmem) hlive htenant hname
  rw [← hnone]
  constructor
  · rintro ⟨-, -, hname, -, hno, -⟩
    exact ⟨hname, hno⟩
  · rintro ⟨hname, hno⟩
    exact ⟨_, (), hname, (), hno, rfl⟩

theorem createKey_isOk_iff (hashKey : String → List UInt8) (draw : Draw) (hwf : b.WellFormed)
    (hindexed : b.Indexed)
    (hold : findById b keyId tenantId = .ok old)
    (hrevoke : revokeKey now b keyId tenantId = .ok b') :
    (∃ c, createKey hashKey draw b' (rotationRequest old tenantId) old.createdBy = .ok c) ↔
      Room hashKey draw keyId old b := by
  have hlive : ∀ hash r, r.revokedAt = none →
      (findByHash b' hash = some r ↔ findByHash b hash = some r ∧ r.id ≠ keyId) :=
    fun _ _ hr => live_revokeKey_iff hwf hindexed hrevoke hr
  cases b with
  | database tenants keys =>
    simp only [findById, bind_eq_ok, okOr_eq_ok, pure_eq_ok, mapError_eq_ok_iff] at hold
    obtain ⟨tid, htid, k, hk, rfl⟩ := hold
    obtain ⟨-, -, hktid⟩ := findById_eq_some hk
    have hwf' := (keeps_revokeKey hrevoke).wellFormed hwf
    obtain ⟨tid', htid', -, rfl⟩ := revokeKey_database_eq_ok.mp hrevoke
    cases htid.symm.trans htid'
    rw [createKey_database_isOk_iff]
    refine and_congr_right fun _ => ?_
    have hactive : ApiKeyStore.activeNameExists (ApiKeyStore.revoke keys now keyId tid).1 tid
        (Text.trim k.name) = false ↔
        ∀ hash r, findByHash (.database tenants keys) hash = some r → r.id ≠ keyId →
          r.revokedAt = none → r.tenantId = (ApiKeyRecord.ofRow k).tenantId →
          r.name ≠ Text.trim k.name := by
      constructor
      · intro hno hash r hr hid hrlive htenant hname
        obtain ⟨k', hk', rfl⟩ := mem_of_findByHash ((hlive hash r hrlive).mpr ⟨hr, hid⟩)
        have htid : k'.tenantId = tid := (Uuid.toString_injective htenant).trans hktid
        have hnone : k'.revokedAt = none := hrlive
        have hsame : k'.name = Text.trim k.name := hname
        exact List.any_eq_false.mp hno k' hk' (by simp [htid, hnone, hsame])
      · intro hfree
        refine List.any_eq_false.mpr fun k' hk' hsame => ?_
        simp only [Bool.and_eq_true, beq_iff_eq, Option.isNone_iff_eq_none] at hsame
        obtain ⟨⟨htenant, hname⟩, hklive⟩ := hsame
        have hfound := congrArg (Option.map ApiKeyRecord.ofRow) (findByHash_of_mem hwf' hk')
        obtain ⟨hr, hid⟩ := (hlive k'.keyHash (.ofRow k') hklive).mp hfound
        refine hfree k'.keyHash (.ofRow k') hr hid hklive ?_ hname
        exact congrArg Uuid.toString (htenant.trans hktid.symm)
    have hknows : (Backend.database tenants (ApiKeyStore.revoke keys now keyId tid).1).knows
        draw.id = (Backend.database tenants keys).knows draw.id := by
      simp only [knows, ApiKeyStore.revoke, Table.get?_update, Option.isSome_map]
    have hhash : findByHash (.database tenants (ApiKeyStore.revoke keys now keyId tid).1)
        (hashKey (generateKey draw.secret)) = none ↔
        findByHash (.database tenants keys) (hashKey (generateKey draw.secret)) = none := by
      simp only [findByHash, findByHash_revoke, Option.map_eq_none_iff]
    simp only [rotationRequest, hknows, hhash, htid]
    constructor
    · rintro ⟨_, ⟨⟩, hno, hroom⟩
      exact ⟨hactive.mp hno, hroom⟩
    · rintro ⟨hfree, hroom⟩
      exact ⟨tid, rfl, hactive.mpr hfree, hroom⟩
  | memory byHash idToHash =>
    simp only [findById, bind_eq_ok, okOr_eq_ok, refuseIf_eq_ok, not_not, pure_eq_ok] at hold
    obtain ⟨hash, hhash, record, hrecord, -, rfl, rfl⟩ := hold
    have hmemory : ∃ byHash', b' = .memory byHash' idToHash := by
      obtain ⟨_, _, -, -, -, rfl⟩ := revokeKey_memory_eq_ok.mp hrevoke
      exact ⟨_, rfl⟩
    obtain ⟨byHash', rfl⟩ := hmemory
    rw [createKey_memory_isOk_iff]
    refine and_congr_right fun _ => ?_
    constructor
    · intro hfree
      refine ⟨fun hash' r hr hid hr' => ?_, trivial⟩
      exact hfree hash' r ((hlive hash' r hr').mpr ⟨hr, hid⟩) hr'
    · rintro ⟨hfree, -⟩ hash' r hr hr'
      obtain ⟨hr, hid⟩ := (hlive hash' r hr').mp hr
      exact hfree hash' r hr hid hr'

def ApiKeyRecord.Dead (r : ApiKeyRecord) (now : Timestamp) : Prop :=
  r.revokedAt.isSome = true ∨ r.expiresAt.any (· < now) = true

instance (r : ApiKeyRecord) (now : Timestamp) : Decidable (r.Dead now) :=
  inferInstanceAs (Decidable (_ ∨ _))

def Backend.Validates (b : Backend) (now : Timestamp) (keyHash : List UInt8) (keyId : Uuid) :
    Prop :=
  ∃ r, findByHash b keyHash = some r ∧ r.id = keyId ∧ ¬ r.Dead now

def Backend.NoNewKey (b b' : Backend) : Prop :=
  ∀ h r, findByHash b' h = some r → ∃ r₀, findByHash b h = some r₀ ∧ r₀.id = r.id

theorem Backend.Keeps.noNewKey (h : Backend.Keeps b b') : b.NoNewKey b' := by
  intro hash r hr
  obtain ⟨r₀, hr₀, hevolved⟩ := h.before hr
  exact ⟨r₀, hr₀, hevolved.id.symm⟩

theorem knows_of_findByHash (hwf : b.WellFormed)
    (hr : findByHash b hash = some r) : b.knows r.id = true := by
  cases b with
  | database tenants keys =>
    obtain ⟨k, hk, rfl⟩ := mem_of_findByHash hr
    exact Option.isSome_of_eq_some (Table.get?_eq_some.mpr ⟨hk, rfl⟩)
  | memory byHash idToHash => exact Option.isSome_of_eq_some (hwf hash r hr)

theorem not_noNewKey_of_adds {b'' : Backend} (hwf : b.WellFormed)
    (hkeeps : Backend.Keeps b b') (hadds : b'.Adds b'' r) : ¬ b.NoNewKey b'' := by
  intro hno
  obtain ⟨r₀, hr₀, hid⟩ := hno r.keyHash r (by rw [hadds.records, if_pos rfl])
  have hknown := hkeeps.knows r₀.id (knows_of_findByHash hwf hr₀)
  rw [hid, hadds.isNew] at hknown
  cases hknown

theorem Backend.Revoked.not_validates (h : b.Revoked keyId) (now : Timestamp)
    (hash : List UInt8) : ¬ b.Validates now hash keyId := by
  rintro ⟨r, hr, hid, hdead⟩
  exact hdead (.inl (h.records hash r hr hid))

namespace Login

open LoginSystem

variable {svc : Service} {sys : LoginSystem} {m₁ m₂ m₃ : Moment} (revokedAt : Option Timestamp)

/-- `rotate_key`: one moment for each of its calls. -/
def rotateCall (svc : Service) (sys : LoginSystem) (m₁ m₂ m₃ : Moment) (keyId : Uuid)
    (tenantId : String) : Option (LoginSystem × Response) :=
  Tasks.alone (fun sys others m request phase => advance svc sys others m request phase)
    (.rotate keyId tenantId) [m₁, m₂, m₃] sys .start

def Response.isRefused : Response → Bool
  | refused _ => true
  | _ => false

/-- Authority that was lost does not come back, and none is lost by an error. -/
structure RotationSound (sys sys' : LoginSystem) (response : Response) (now : Timestamp)
    (keyId : Uuid) (old : ApiKeyRecord) : Prop where
  dead : old.Dead now → response.isRefused = true ∧ sys.backend.NoNewKey sys'.backend
  alive : ¬ old.Dead now → response.isRefused = true →
    ∀ hash, sys.backend.Validates now hash keyId → sys'.backend.Validates now hash keyId

/-- What has to meet the calls of a rotation: nothing is revoked before the error, or a live
key is replaced without one, or a dead key meets an error that leaves no new key. -/
def RotationSafe (svc : Service) (sys : LoginSystem) (m₁ m₂ m₃ : Moment) (keyId : Uuid)
    (old : ApiKeyRecord) : Prop :=
  (sys.storageFailure m₁).isSome = true ∨ (sys.storageFailure m₂).isSome = true ∧ m₂.took = false ∨
  ¬ old.Dead m₁.now ∧ sys.storageFailure m₂ = none ∧ sys.storageFailure m₃ = none ∧
    Room svc.hashKey m₃.draw keyId old sys.backend ∨
  old.Dead m₁.now ∧ ((sys.storageFailure m₂).isSome = true ∨
    ¬ Room svc.hashKey m₃.draw keyId old sys.backend ∨
    (sys.storageFailure m₃).isSome = true ∧ m₃.took = false)

theorem storageFailure_of_revokeKey (m : Moment)
    (h : revokeKey now sys.backend keyId tenantId = .ok b') :
    ({ sys with backend := b' } : LoginSystem).storageFailure m = sys.storageFailure m := by
  have hdatabase : ({ sys with backend := b' } : LoginSystem).hasDatabase = sys.hasDatabase := by
    unfold hasDatabase
    dsimp only
    cases hb : sys.backend with
    | database tenants keys =>
      rw [hb] at h
      obtain ⟨_, -, -, rfl⟩ := revokeKey_database_eq_ok.mp h
      rfl
    | memory byHash idToHash =>
      rw [hb] at h
      obtain ⟨_, _, -, -, -, rfl⟩ := revokeKey_memory_eq_ok.mp h
      rfl
  unfold storageFailure
  rw [hdatabase]

theorem freshId_of_revokeKey {id : Uuid} (h : revokeKey now b keyId tenantId = .ok b') :
    b'.freshId id = b.freshId id := by
  cases b with
  | database tenants keys =>
    obtain ⟨_, -, -, rfl⟩ := revokeKey_database_eq_ok.mp h
    rfl
  | memory byHash idToHash =>
    obtain ⟨_, _, -, -, -, rfl⟩ := revokeKey_memory_eq_ok.mp h
    rfl

section Calls

variable (svc : Service) (m₁ m₂ m₃ : Moment) {reason : String}

theorem rotateCall_of_missing {e : ApiKeyError}
    (hold : findById sys.backend keyId tenantId = .error e) :
    ∃ error, rotateCall svc sys m₁ m₂ m₃ keyId tenantId = some (sys, .refused error) := by
  cases hfail : sys.storageFailure m₁ <;>
    exact ⟨_, by simp only [rotateCall, Tasks.alone, advance, rotateStart, hold, hfail]; rfl⟩

variable (hold : findById sys.backend keyId tenantId = .ok old)

include hold

theorem rotateCall_of_unread (hread : sys.storageFailure m₁ = some reason) :
    ∃ error, rotateCall svc sys m₁ m₂ m₃ keyId tenantId = some (sys, .refused error) :=
  ⟨_, by simp only [rotateCall, Tasks.alone, advance, rotateStart, hold, hread]; rfl⟩

section

variable (hread : sys.storageFailure m₁ = none)
  (hrevoke : revokeKey m₂.now sys.backend keyId tenantId = .ok b')

include hread hrevoke

theorem rotateCall_of_unrevoked (hwrite : sys.storageFailure m₂ = some reason) :
    ∃ error, rotateCall svc sys m₁ m₂ m₃ keyId tenantId =
      some (if m₂.took then { sys with backend := b' } else sys, .refused error) :=
  ⟨_, by
    simp only [rotateCall, Tasks.alone, advance, rotateStart, hold, hread, revokeThen, hrevoke,
      hwrite]
    rfl⟩

theorem rotateCall_of_revoked (hwrite : sys.storageFailure m₂ = none) :
    rotateCall svc sys m₁ m₂ m₃ keyId tenantId =
      match rotateReplacing svc { sys with backend := b' } m₃ tenantId old with
      | .finish db reply => some (db, reply)
      | _ => none := by
  simp only [rotateCall, Tasks.alone, advance, rotateStart, hold, hread, revokeThen, hrevoke,
    hwrite]
  split <;> simp_all

end

end Calls

/-! ## When a rotation is sound -/

section Sound

variable {sys' : LoginSystem} {error : ErrorResponse}

theorem RotationSound.unchanged (now : Timestamp) (keyId : Uuid) (old : ApiKeyRecord) :
    RotationSound sys sys (.refused error) now keyId old where
  dead := fun _ => ⟨rfl, (Backend.Keeps.refl sys.backend).noNewKey⟩
  alive := fun _ _ _ hvalid => hvalid

theorem sound_revoked_iff (hwf : sys.backend.WellFormed) (hindexed : sys.backend.Indexed)
    (hold : findById sys.backend keyId tenantId = .ok old)
    (hrevoked : sys'.backend.Revoked keyId) :
    RotationSound sys sys' (.refused error) now keyId old ↔
      old.Dead now ∧ sys.backend.NoNewKey sys'.backend := by
  constructor
  · intro hsound
    have hdead : old.Dead now := by
      by_contra halive
      obtain ⟨hid, hash, hfound⟩ := findByHash_of_findById hwf hindexed hold
      exact hrevoked.not_validates now hash
        (hsound.alive halive rfl hash ⟨old, hfound, hid, halive⟩)
    exact ⟨hdead, (hsound.dead hdead).2⟩
  · rintro ⟨hdead, hno⟩
    exact ⟨fun _ => ⟨rfl, hno⟩, fun halive => absurd hdead halive⟩

theorem sound_replacing_iff (svc : Service) (now : Timestamp) (hwf : sys.backend.WellFormed)
    (hindexed : sys.backend.Indexed)
    (hfresh : sys.backend.freshId m₃.draw.id = true)
    (hold : findById sys.backend keyId tenantId = .ok old)
    (hrevoke : revokeKey m₂.now sys.backend keyId tenantId = .ok b') : ∃ sys' response,
      rotateReplacing svc { sys with backend := b' } m₃ tenantId old = .finish sys' response ∧
      (RotationSound sys sys' response now keyId old ↔
        ¬ old.Dead now ∧ sys.storageFailure m₃ = none ∧
          Room svc.hashKey m₃.draw keyId old sys.backend ∨
        old.Dead now ∧ (¬ Room svc.hashKey m₃.draw keyId old sys.backend ∨
          (sys.storageFailure m₃).isSome = true ∧ m₃.took = false)) := by
  have hkeeps := keeps_revokeKey hrevoke
  have hrevoked := revoked_of_revokeKey hwf hrevoke
  have hroom := createKey_isOk_iff svc.hashKey m₃.draw hwf hindexed hold hrevoke
  have hfail := storageFailure_of_revokeKey m₃ hrevoke
  unfold rotateReplacing
  rw [hfail]
  cases hcreate : createKey svc.hashKey m₃.draw b' (rotationRequest old tenantId) old.createdBy with
  | error e =>
    have hfull : ¬ Room svc.hashKey m₃.draw keyId old sys.backend := by
      rw [← hroom]
      rintro ⟨c, hc⟩
      cases hcreate.symm.trans hc
    cases hwrite : sys.storageFailure m₃ <;>
    · refine ⟨_, _, rfl, ?_⟩
      rw [sound_revoked_iff hwf hindexed hold hrevoked]
      simp [hfull, hkeeps.noNewKey]
  | ok c =>
    obtain ⟨b'', response⟩ := c
    have hspace := hroom.mp ⟨_, hcreate⟩
    obtain ⟨r, hadds⟩ := createKey_adds hcreate ((freshId_of_revokeKey hrevoke).trans
      hfresh)
    cases hwrite : sys.storageFailure m₃ with
    | none =>
      refine ⟨_, _, rfl, ?_⟩
      constructor
      · intro hsound
        by_cases hdead : old.Dead now
        · cases (hsound.dead hdead).1
        · exact .inl ⟨hdead, rfl, hspace⟩
      · rintro (⟨hdead, -, -⟩ | ⟨-, hfull | ⟨hsome, -⟩⟩)
        · exact ⟨fun h => absurd h hdead, fun _ href => nomatch href⟩
        · exact absurd hspace hfull
        · cases hsome
    | some reason =>
      refine ⟨_, _, rfl, ?_⟩
      cases htook : m₃.took with
      | false =>
        rw [if_neg (by simp), sound_revoked_iff hwf hindexed hold hrevoked]
        simp [hkeeps.noNewKey]
      | true =>
        rw [if_pos rfl, sound_revoked_iff hwf hindexed hold (hrevoked.adds hadds)]
        simp [hspace, not_noNewKey_of_adds hwf hkeeps hadds]

/-- A rotation answers, and does so soundly if and only if its calls meet what they have to. -/
theorem rotation_sound_iff (hwf : sys.backend.WellFormed) (hindexed : sys.backend.Indexed)
    (hfresh : sys.backend.freshId m₃.draw.id = true) :
    ∃ sys' response, rotateCall svc sys m₁ m₂ m₃ keyId tenantId = some (sys', response) ∧
      ((∀ old, findById sys.backend keyId tenantId = .ok old →
          RotationSound sys sys' response m₁.now keyId old) ↔
        ∀ old, findById sys.backend keyId tenantId = .ok old →
          RotationSafe svc sys m₁ m₂ m₃ keyId old) := by
  cases hfind : findById sys.backend keyId tenantId with
  | error e =>
    obtain ⟨error, hcall⟩ := rotateCall_of_missing svc m₁ m₂ m₃ hfind
    exact ⟨sys, _, hcall, by simp⟩
  | ok old =>
    suffices hone : ∃ sys' response,
        rotateCall svc sys m₁ m₂ m₃ keyId tenantId = some (sys', response) ∧
        (RotationSound sys sys' response m₁.now keyId old ↔
          RotationSafe svc sys m₁ m₂ m₃ keyId old) by
      obtain ⟨sys', response, hcall, hiff⟩ := hone
      refine ⟨sys', response, hcall, ?_⟩
      simpa only [Except.ok.injEq, forall_eq'] using hiff
    obtain ⟨b', hrevoke⟩ := revokeKey_of_findById m₂.now hfind
    cases hread : sys.storageFailure m₁ with
    | some reason =>
      obtain ⟨error, hcall⟩ := rotateCall_of_unread svc m₁ m₂ m₃ hfind hread
      refine ⟨sys, _, hcall, iff_of_true (.unchanged m₁.now keyId old) (.inl ?_)⟩
      rw [hread, Option.isSome_some]
    | none =>
      cases hwrite : sys.storageFailure m₂ with
      | some reason =>
        obtain ⟨error, hcall⟩ := rotateCall_of_unrevoked svc m₁ m₂ m₃ hfind hread hrevoke
          hwrite
        refine ⟨_, _, hcall, ?_⟩
        cases htook : m₂.took with
        | false =>
          refine iff_of_true (.unchanged m₁.now keyId old) (.inr (.inl ⟨?_, htook⟩))
          rw [hwrite, Option.isSome_some]
        | true =>
          rw [if_pos rfl, sound_revoked_iff hwf hindexed hfind (revoked_of_revokeKey hwf hrevoke)]
          simp [RotationSafe, hread, hwrite, htook, (keeps_revokeKey hrevoke).noNewKey]
      | none =>
        obtain ⟨sys', response, hdone, hiff⟩ :=
          sound_replacing_iff svc m₁.now hwf hindexed hfresh hfind hrevoke
        refine ⟨sys', response, ?_, ?_⟩
        · rw [rotateCall_of_revoked svc m₁ m₂ m₃ hfind hread hrevoke hwrite, hdone]
        · simp [RotationSafe, hread, hwrite, hiff]

end Sound

def textService : Service :=
  { phoneService with hashKey := fun raw => raw.toList.map fun c => c.toNat.toUInt8 }

def tableWith : LoginSystem :=
  { phoneSystem with
    backend := .database (.singleton ciRow) (.singleton { phoneKey with revokedAt := revokedAt }) }

def memoryWith : LoginSystem :=
  let key : ApiKeyRecord := .ofRow { phoneKey with revokedAt := revokedAt }
  { phoneSystem with
    backend := .memory ((∅ : AList _).insert [1] key) ((∅ : AList _).insert key.id [1]) }

def lostMoment : Moment := { phoneMoment ciTenant with failure := some (.statement "closed") }

theorem rotation_sound_iff_lost :
    ∃ sys' response, rotateCall textService (tableWith none) (phoneMoment ciTenant)
        (phoneMoment ciTenant) lostMoment phoneKey.id ciTenant.toString = some (sys', response) ∧
      ((∀ old, findById (tableWith none).backend phoneKey.id ciTenant.toString = .ok old →
          RotationSound (tableWith none) sys' response (seconds 150) phoneKey.id old) ↔
        ∀ old, findById (tableWith none).backend phoneKey.id ciTenant.toString = .ok old →
          RotationSafe textService (tableWith none) (phoneMoment ciTenant) (phoneMoment ciTenant)
            lostMoment phoneKey.id old) :=
  rotation_sound_iff (List.nodup_singleton _) trivial rfl

/-- On both backends a key that is revoked is replaced by one that is not, and an error of the
creation leaves a live key revoked. -/
theorem rotation_unsound :
    (∃ sys' response old, rotateCall textService (tableWith (some 0)) (phoneMoment ciTenant)
        (phoneMoment ciTenant) (phoneMoment ciTenant) phoneKey.id ciTenant.toString =
          some (sys', response) ∧
      findById (tableWith (some 0)).backend phoneKey.id ciTenant.toString = .ok old ∧
      ¬ RotationSound (tableWith (some 0)) sys' response (seconds 150) phoneKey.id old) ∧
    (∃ sys' response old, rotateCall textService (memoryWith (some 0)) (phoneMoment ciTenant)
        (phoneMoment ciTenant) (phoneMoment ciTenant) phoneKey.id ciTenant.toString =
          some (sys', response) ∧
      findById (memoryWith (some 0)).backend phoneKey.id ciTenant.toString = .ok old ∧
      ¬ RotationSound (memoryWith (some 0)) sys' response (seconds 150) phoneKey.id old) ∧
    (∃ sys' response old, rotateCall textService (tableWith none) (phoneMoment ciTenant)
        (phoneMoment ciTenant) lostMoment phoneKey.id ciTenant.toString = some (sys', response) ∧
      findById (tableWith none).backend phoneKey.id ciTenant.toString = .ok old ∧
      ¬ RotationSound (tableWith none) sys' response (seconds 150) phoneKey.id old) := by
  refine ⟨⟨_, _, _, rfl, rfl, fun h => ?_⟩, ⟨_, _, _, rfl, rfl, fun h => ?_⟩,
    ⟨_, _, _, rfl, rfl, fun h => ?_⟩⟩
  · cases (h.dead (.inl rfl)).1
  · cases (h.dead (.inl rfl)).1
  · obtain ⟨r, hr, -, hdead⟩ := h.alive (by decide) rfl [1] ⟨_, rfl, rfl, by decide⟩
    cases hr
    exact hdead (.inl rfl)

end Login

end WslVault.IdentityService
