import WslVault.Base.Except
import WslVault.Storage.TenantStore

/-!
# API keys

The table `shared.api_keys` (`005_api_keys.sql`, `016_api_keys_active_name_unique.sql`,
`025_superuser.sql`), the upsert by which a replicated key reaches it, and the functions of
`crates/wslvault-storage/src/api_key_store.rs`.
-/

namespace WslVault.Storage

open Core Base

/-- A text for a column `VARCHAR(n)`: blanks beyond the limit are cut off. -/
def varchar (limit : Nat) (text : String) : Except SqlError String :=
  if text.toList.length ≤ limit then .ok text
  else if (text.toList.drop limit).all (· == ' ') then
    .ok (String.ofList (text.toList.take limit))
  else .error (.valueTooLong limit)

theorem varchar_of_le {limit : Nat} {text : String} (h : text.toList.length ≤ limit) :
    varchar limit text = .ok text := if_pos h

theorem varchar_eq_ok {limit : Nat} {text stored : String} {c : Char}
    (hlast : text.toList.getLast? = some c) (hc : c ≠ ' ') :
    varchar limit text = .ok stored ↔ text.toList.length ≤ limit ∧ stored = text := by
  by_cases hlen : text.toList.length ≤ limit
  · simp [varchar_of_le hlen, hlen, eq_comm]
  · have hmem : c ∈ text.toList.drop limit := by
      refine List.mem_of_getLast? ?_
      rw [List.getLast?_drop, if_neg hlen, hlast]
    have hblank : ¬ (text.toList.drop limit).all (· == ' ') = true := by
      intro hall
      exact hc (eq_of_beq (List.all_eq_true.mp hall c hmem))
    simp [varchar, hlen, hblank]

structure ApiKeyRow where
  (id tenantId : Uuid)
  name : String
  keyHash : List UInt8
  keyPrefix : String
  (pathPrefixes policies : List String)
  createdBy : String
  createdAt : Timestamp
  (expiresAt revokedAt : Option Timestamp)
  rateLimitPerMinute : Int
  lastUsedAt : Option Timestamp := none
  isSuperuser : Bool := false
  mfaRequired : Bool := false
  deriving DecidableEq

abbrev ApiKeyTable := Table ApiKeyRow ApiKeyRow.id

variable {stored row : ApiKeyRow} {keys keys' : ApiKeyTable}

namespace ApiKeyRow

/-- `DO UPDATE SET` with the row excluded from insertion: a time of revocation
that is there stays (`COALESCE`). -/
def merge (excluded row : ApiKeyRow) : ApiKeyRow :=
  { row with
    name := excluded.name
    keyHash := excluded.keyHash
    keyPrefix := excluded.keyPrefix
    pathPrefixes := excluded.pathPrefixes
    policies := excluded.policies
    expiresAt := excluded.expiresAt
    revokedAt := row.revokedAt <|> excluded.revokedAt
    rateLimitPerMinute := excluded.rateLimitPerMinute }

theorem id_merge (excluded row : ApiKeyRow) : (excluded.merge row).id = row.id := rfl

theorem revokedAt_merge (excluded row : ApiKeyRow) : (excluded.merge row).revokedAt.isSome = true ↔
      row.revokedAt.isSome = true ∨ excluded.revokedAt.isSome = true := by
  cases h : row.revokedAt <;> simp [merge, h]

def Clash (k row : ApiKeyRow) : Prop :=
  k.id = row.id ∨ k.keyHash = row.keyHash ∨
    k.revokedAt = none ∧ row.revokedAt = none ∧ k.tenantId = row.tenantId ∧ k.name = row.name

instance (k row : ApiKeyRow) : Decidable (k.Clash row) :=
  inferInstanceAs (Decidable (_ ∨ _ ∨ _))

theorem Clash.symm {k : ApiKeyRow} (h : k.Clash row) : row.Clash k := by
  rcases h with h | h | ⟨hk, hrow, htenant, hname⟩
  · exact .inl h.symm
  · exact .inr (.inl h.symm)
  · exact .inr (.inr ⟨hrow, hk, htenant.symm, hname.symm⟩)

end ApiKeyRow

/-- The unique indexes besides the primary key, for a row that is to stand in
the table. -/
def checkApiKey (keys : ApiKeyTable) (row : ApiKeyRow) : Except SqlError Unit :=
  if keys.rows.any fun k => k.id != row.id && k.keyHash == row.keyHash then
    .error (.uniqueViolation "api_keys_key_hash_key")
  else if row.revokedAt.isNone && keys.rows.any fun k =>
      k.id != row.id && k.revokedAt.isNone && k.tenantId == row.tenantId && k.name == row.name then
    .error (.uniqueViolation "idx_api_keys_tenant_name_active")
  else .ok ()

theorem checkApiKey_eq_ok :
    checkApiKey keys row = .ok () ↔ ∀ k ∈ keys, k.id ≠ row.id → ¬ k.Clash row := by
  unfold checkApiKey
  split
  · next h =>
    obtain ⟨k, hk, hclash⟩ := List.any_eq_true.mp h
    simp only [Bool.and_eq_true, bne_iff_ne, beq_iff_eq] at hclash
    simp only [reduceCtorEq, false_iff]
    exact fun hall => hall k hk hclash.1 (.inr (.inl hclash.2))
  · next hhash =>
    split
    · next h =>
      obtain ⟨hrow, h⟩ := Bool.and_eq_true_iff.mp h
      obtain ⟨k, hk, hclash⟩ := List.any_eq_true.mp h
      simp only [Bool.and_eq_true, bne_iff_ne, beq_iff_eq, Option.isNone_iff_eq_none] at hclash hrow
      simp only [reduceCtorEq, false_iff]
      exact fun hall => hall k hk hclash.1.1.1
        (.inr (.inr ⟨hclash.1.1.2, hrow, hclash.1.2, hclash.2⟩))
    · next hname =>
      simp only [true_iff]
      rintro k hk hid (h | h | ⟨hk', hrow, htenant, hsame⟩)
      · exact hid h
      · exact hhash (List.any_eq_true.mpr ⟨k, hk, by simp [hid, h]⟩)
      · refine hname (Bool.and_eq_true_iff.mpr ⟨by simp [hrow], List.any_eq_true.mpr ⟨k, hk, ?_⟩⟩)
        simp [hid, hk', htenant, hsame]

/-- `INSERT … ON CONFLICT (id) DO UPDATE`. The tenant of a row that is there is
not touched, so only an inserted one is checked. -/
def upsertApiKey (tenants : List Uuid) (keys : ApiKeyTable) (row : ApiKeyRow) :
    Except SqlError ApiKeyTable := do
  match keys.get? row.id with
  | some old =>
    checkApiKey keys (row.merge old)
    return keys.update (fun k => k.id == row.id) row.merge row.id_merge
  | none =>
    checkApiKey keys row
    match keys.insert? row with
    | none => throw (.uniqueViolation "api_keys_pkey")
    | some keys' =>
      if row.tenantId ∈ tenants then return keys'
      else throw (.foreignKeyViolation "api_keys" "api_keys_tenant_id_fkey")

theorem get?_upsertApiKey {tenants : List Uuid}
    (h : upsertApiKey tenants keys row = .ok keys') (id : Uuid) : keys'.get? id =
      if row.id = id then some (((keys.get? id).map row.merge).getD row) else keys.get? id := by
  unfold upsertApiKey at h
  cases hget : keys.get? row.id with
  | some old =>
    simp only [hget, bind_eq_ok, pure_eq_ok] at h
    obtain ⟨-, -, rfl⟩ := h
    by_cases hid : row.id = id
    · subst hid
      rw [Table.get?_update_key row.id_merge (by simp), if_pos rfl, hget]
      rfl
    · rw [Table.get?_update, if_neg hid]
      cases hother : keys.get? id with
      | none => rfl
      | some k =>
        have hk : k.id = id := (Table.get?_eq_some.mp hother).2
        simp [hk, Ne.symm hid]
  | none =>
    simp only [hget, bind_eq_ok] at h
    obtain ⟨-, -, h⟩ := h
    split at h
    · cases h
    · next inserted hins =>
      split at h
      · cases h
        rw [Table.get?_insert? hins]
        split
        · next hid => rw [← hid, hget]; rfl
        · rfl
      · cases h

namespace ApiKeyStore

/-- `resolve_tenant_id`: a UUID or a slug, of a tenant that is not deleted. -/
def resolveTenantId (tenants : TenantTable) (reference : String) : Except VaultError Uuid :=
  let named (t : TenantRow) : Bool :=
    match Uuid.parseStr reference with
    | some id => t.id == id
    | none => t.slug == reference
  match tenants.rows.find? fun t => named t && t.deletedAt.isNone with
  | some t => .ok t.id
  | none => .error (.tenantNotFound reference)

def findByHash (keys : ApiKeyTable) (keyHash : List UInt8) : Option ApiKeyRow :=
  keys.rows.find? fun k => k.keyHash == keyHash

def findById (keys : ApiKeyTable) (id tenantId : Uuid) : Option ApiKeyRow :=
  keys.rows.find? fun k => k.id == id && k.tenantId == tenantId

def listActiveForTenant (keys : ApiKeyTable) (now : Timestamp) (tenantId : Uuid) : List ApiKeyRow :=
  (keys.select fun k => k.tenantId == tenantId && k.revokedAt.isNone &&
    k.expiresAt.all (now ≤ ·)).insertionSort fun k k' => k'.createdAt ≤ k.createdAt

def activeNameExists (keys : ApiKeyTable) (tenantId : Uuid) (name : String) : Bool :=
  keys.rows.any fun k => k.tenantId == tenantId && k.name == name && k.revokedAt.isNone

/-- The row that an `INSERT` stores: a superuser's key requires the second factor. -/
def storedRow (row : ApiKeyRow) : Except SqlError ApiKeyRow := do
  let name ← varchar 255 row.name
  let keyPrefix ← varchar 12 row.keyPrefix
  let createdBy ← varchar 255 row.createdBy
  return { row with
    name := name
    keyPrefix := keyPrefix
    createdBy := createdBy
    lastUsedAt := none
    revokedAt := none
    mfaRequired := row.mfaRequired || row.isSuperuser }

theorem storedRow_eq_ok (h : storedRow row = .ok stored) :
    ∃ name keyPrefix createdBy, stored = { row with
        name := name
        keyPrefix := keyPrefix
        createdBy := createdBy
        lastUsedAt := none
        revokedAt := none
        mfaRequired := row.mfaRequired || row.isSuperuser } := by
  simp only [storedRow, bind_eq_ok, pure_eq_ok] at h
  obtain ⟨name, -, keyPrefix, -, createdBy, -, hstored⟩ := h
  exact ⟨name, keyPrefix, createdBy, hstored.symm⟩

theorem keyHash_storedRow (h : storedRow row = .ok stored) : stored.keyHash = row.keyHash := by
  obtain ⟨_, _, _, rfl⟩ := storedRow_eq_ok h
  rfl

theorem isSuperuser_storedRow (h : storedRow row = .ok stored) :
    stored.isSuperuser = row.isSuperuser := by
  obtain ⟨_, _, _, rfl⟩ := storedRow_eq_ok h
  rfl

def insertRow (tenants : TenantTable) (keys : ApiKeyTable) (row : ApiKeyRow) :
    Except SqlError ApiKeyTable := do
  let row ← storedRow row
  checkApiKey keys row
  match keys.insert? row with
  | none => throw (.uniqueViolation "api_keys_pkey")
  | some keys' =>
    if (tenants.get? row.tenantId).isSome then return keys'
    else throw (.foreignKeyViolation "api_keys" "api_keys_tenant_id_fkey")

/-- Every unique violation is taken for one of the name. -/
def insert (tenants : TenantTable) (keys : ApiKeyTable) (row : ApiKeyRow) :
    Except VaultError ApiKeyTable :=
  (insertRow tenants keys row).mapError fun e =>
    match e with
    | .uniqueViolation _ =>
      .validationError "name" ("an active api key named '" ++ row.name ++ "' already exists")
    | e => .database ("api_keys insert: " ++ e.message)

theorem insert_eq_ok {tenants : TenantTable} : insert tenants keys row = .ok keys' ↔
      ∃ stored, storedRow row = .ok stored ∧ (∀ k ∈ keys, ¬ k.Clash stored) ∧
        keys'.rows = keys.rows ++ [stored] ∧ (tenants.get? stored.tenantId).isSome := by
  have hinsert : insert tenants keys row = .ok keys' ↔ insertRow tenants keys row = .ok keys' := by
    unfold insert
    cases insertRow tenants keys row <;> simp [mapError_ok, mapError_error]
  rw [hinsert]
  simp only [insertRow, bind_eq_ok]
  constructor
  · rintro ⟨stored, hstored, ⟨⟩, hcheck, h⟩
    split at h
    · cases h
    · next inserted hins =>
      split at h
      · next htenant =>
        cases h
        obtain ⟨hfree, hrows⟩ := Table.insert?_eq_some.mp hins
        exact ⟨stored, hstored, fun k hk => checkApiKey_eq_ok.mp hcheck k hk (hfree k hk), hrows,
          htenant⟩
      · cases h
  · rintro ⟨stored, hstored, hfree, hrows, htenant⟩
    have hins : keys.insert? stored = some keys' :=
      Table.insert?_eq_some.mpr ⟨fun k hk hid => hfree k hk (.inl hid), hrows⟩
    refine ⟨stored, hstored, (), checkApiKey_eq_ok.mpr fun k hk _ => hfree k hk, ?_⟩
    simp only [hins, htenant, if_true, pure_eq_ok]

theorem findByHash_insert {tenants : TenantTable} (h : insert tenants keys row = .ok keys') :
    ∃ stored, storedRow row = .ok stored ∧ findByHash keys' row.keyHash = some stored := by
  obtain ⟨stored, hstored, hfree, hrows, -⟩ := insert_eq_ok.mp h
  refine ⟨stored, hstored, ?_⟩
  have hhash : stored.keyHash = row.keyHash := keyHash_storedRow hstored
  have hnone : keys.rows.find? (fun k => k.keyHash == row.keyHash) = none :=
    List.find?_eq_none.mpr fun k hk hclash =>
      hfree k hk (.inr (.inl (by rw [hhash]; exact eq_of_beq hclash)))
  rw [findByHash, hrows, List.find?_append, hnone]
  simp [hhash]

def revoke (keys : ApiKeyTable) (now : Timestamp) (id tenantId : Uuid) : ApiKeyTable × Bool :=
  let active (k : ApiKeyRow) : Bool := k.id == id && k.tenantId == tenantId && k.revokedAt.isNone
  (keys.update active (fun k => { k with revokedAt := some now }) fun _ => rfl,
    keys.rows.any active)

def touchLastUsed (keys : ApiKeyTable) (now : Timestamp) (id tenantId : Uuid) : ApiKeyTable :=
  keys.update (fun k => k.id == id && k.tenantId == tenantId)
    (fun k => { k with lastUsedAt := some now }) fun _ => rfl

end ApiKeyStore

end WslVault.Storage
