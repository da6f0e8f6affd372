import WslVault.Core.Error
import WslVault.Storage.SecretLifecycle

/-!
# Wrapped keys

The table `system.key_descriptors` with its constraints, and the functions of
`crates/wslvault-storage/src/key_store.rs` the crypto service calls. A database call either
does its work or fails without effect, with the error text that the call is given. Key
names, parents, algorithms and rotation times are not read by the service and are left out.
-/

namespace WslVault.Storage

open Core Base

structure KeyRow where
  id : Uuid
  version : Int
  purpose : KeyPurpose
  state : KeyState
  tenantId : Option Uuid
  wrappedKey : String
  createdAt : Timestamp
  deriving DecidableEq

namespace KeyRow

/-- What `idx_key_descriptors_kek_unique` indexes. Data encryption keys are not
in it, nor are rows without a tenant. -/
def kekKey (r : KeyRow) : Option (Uuid × KeyPurpose × Int) :=
  if r.purpose = .dataEncryption then none
  else r.tenantId.map fun tenant => (tenant, r.purpose, r.version)

/-- `state IN ('active', 'rotating_out')`. -/
def loadable (r : KeyRow) : Bool := r.state = .active || r.state = .rotatingOut

def setState (state : KeyState) (r : KeyRow) : KeyRow := { r with state := state }

theorem id_setState (state : KeyState) (r : KeyRow) : (r.setState state).id = r.id := rfl

theorem kekKey_setState (state : KeyState) (r : KeyRow) : (r.setState state).kekKey = r.kekKey :=
  rfl

end KeyRow

/-- The key table, with the tenants its rows may refer to. -/
structure KeyDb where
  tenants : List Uuid
  descriptors : Table KeyRow KeyRow.id
  kekUnique : (descriptors.rows.filterMap KeyRow.kekKey).Nodup

namespace KeyDb

def empty (tenants : List Uuid) : KeyDb := ⟨tenants, .empty, List.nodup_nil⟩

/-- `INSERT INTO system.key_descriptors`. Indexes are checked while the row goes
in, the reference to the tenant at the end of the statement. -/
def insertRow (db : KeyDb) (r : KeyRow) : Except SqlError KeyDb :=
  match h : db.descriptors.insert? r with
  | none => .error (.uniqueViolation "key_descriptors_pkey")
  | some descriptors =>
    if hkek : ∀ k ∈ r.kekKey, k ∉ db.descriptors.rows.filterMap KeyRow.kekKey then
      if ∀ tenant ∈ r.tenantId, tenant ∈ db.tenants then
        .ok
          { tenants := db.tenants
            descriptors := descriptors
            kekUnique := by
              rw [(Table.insert?_eq_some.mp h).2, List.filterMap_append]
              refine List.nodup_append.mpr ⟨db.kekUnique, ?_, ?_⟩
              · cases hr : r.kekKey <;> simp [hr]
              · rintro k hk k' hk' rfl
                simp only [List.filterMap_cons, List.filterMap_nil] at hk'
                split at hk'
                · cases hk'
                · next k' hr =>
                  exact hkek k (by simpa [hr] using (List.mem_singleton.mp hk').symm) hk }
      else .error (.foreignKeyViolation "key_descriptors" "key_descriptors_tenant_id_fkey")
    else .error (.uniqueViolation "idx_key_descriptors_kek_unique")

def setState (db : KeyDb) (id : Uuid) (state : KeyState) : KeyDb where
  tenants := db.tenants
  descriptors :=
    db.descriptors.update (fun r => r.id = id) (KeyRow.setState state) (KeyRow.id_setState state)
  kekUnique := by
    have hkeys : (db.descriptors.update (fun r => r.id = id) (KeyRow.setState state)
        (KeyRow.id_setState state)).rows.filterMap KeyRow.kekKey =
        db.descriptors.rows.filterMap KeyRow.kekKey := by
      rw [Table.update, List.filterMap_map]
      congr 1
      funext r
      simp only [Function.comp_apply]
      split
      · exact KeyRow.kekKey_setState state r
      · rfl
    rw [hkeys]
    exact db.kekUnique

end KeyDb

namespace KeyStore

structure KeyDescriptor where
  id : Uuid
  version : UInt32
  purpose : KeyPurpose
  state : KeyState
  tenantId : Option String

/-- A tenant id that is no UUID is stored as `NULL`. -/
def rowOf (desc : KeyDescriptor) (wrappedKey : String) (now : Timestamp) : KeyRow where
  id := desc.id
  version := asI32 desc.version
  purpose := desc.purpose
  state := desc.state
  tenantId := desc.tenantId.bind Uuid.parseStr
  wrappedKey := wrappedKey
  createdAt := now

def insertKeyDescriptor (db : KeyDb) (fault : Option String) (now : Timestamp)
    (desc : KeyDescriptor) (wrappedKey : String) : Except VaultError KeyDb :=
  match fault with
  | some reason => .error (.database reason)
  | none => (db.insertRow (rowOf desc wrappedKey now)).mapError fun e => .database e.message

def updateKeyState (db : KeyDb) (fault : Option String) (id : Uuid) (state : KeyState) :
    Except VaultError KeyDb :=
  match fault with
  | some reason => .error (.database reason)
  | none => .ok (db.setState id state)

structure PersistedKeyEntry where
  keyId : String
  tenantId : Option String
  version : UInt32
  wrappedKey : String
  deriving DecidableEq

def entryOf (r : KeyRow) : PersistedKeyEntry where
  keyId := r.id.toString
  tenantId := r.tenantId.map Uuid.toString
  version := asU32 r.version
  wrappedKey := r.wrappedKey

def fetchAll {α : Type} (fault : Option String) (rows : List α) : Except VaultError (List α) :=
  match fault with
  | some reason => .error (.database reason)
  | none => .ok rows

def byVersion (rows : List KeyRow) : List KeyRow :=
  rows.insertionSort fun r r' => r.version ≤ r'.version

def newestFirst (rows : List KeyRow) : List KeyRow :=
  rows.insertionSort fun r r' => r'.createdAt ≤ r.createdAt

/-- Every stored version of one key id, oldest first. -/
def getKeyVersionsWithWrappedKey (db : KeyDb) (fault : Option String) (id : Uuid) :
    Except VaultError (List PersistedKeyEntry) :=
  fetchAll fault
    ((byVersion (db.descriptors.select fun r => r.id = id && r.loadable)).map entryOf)

/-- The keys of a purpose created last, oldest version first. Without a limit
(`i64::MAX`), all of them. -/
def listRecentLoadableKeys (db : KeyDb) (fault : Option String) (purpose : KeyPurpose)
    (limit : Option Nat) : Except VaultError (List PersistedKeyEntry) :=
  let newest := newestFirst (db.descriptors.select fun r => r.purpose = purpose && r.loadable)
  let recent :=
    match limit with
    | none => newest
    | some n => newest.take n
  fetchAll fault ((byVersion recent).map entryOf)

def listActiveKeysWithWrappedKey (db : KeyDb) (fault : Option String) (purpose : KeyPurpose) :
    Except VaultError (List PersistedKeyEntry) :=
  listRecentLoadableKeys db fault purpose none

end KeyStore

end WslVault.Storage
