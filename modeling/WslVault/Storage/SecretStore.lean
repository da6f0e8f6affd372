import WslVault.Core.Error
import WslVault.Storage.SecretLifecycle

/-!
# The secret store

The functions of `crates/wslvault-storage/src/secret_store.rs` that the secret
engine's PostgreSQL backend calls, each inside a transaction of the caller. An
error ends the transaction without a commit.
-/

namespace WslVault.Storage.SecretStore

open Core Base

/-- What the callers read of `SecretMetadata`. -/
structure SecretMetadata where
  id : Uuid
  currentVersion : UInt32

def getSecretMetadata (db : Db) (tenantId : Uuid) (path : String) :
    Except VaultError SecretMetadata :=
  match db.secrets.get? (tenantId, path) with
  | some s => .ok ⟨s.id, asU32 s.currentVersion⟩
  | none => .error (.secretNotFound path none)

/-- The highest version that is neither soft-deleted nor destroyed, 0 when
there is none. The query does not look at the version's status. -/
def latestLiveVersion (db : Db) (secretId : Uuid) : UInt32 :=
  asU32 (((db.versions.select fun v => v.secretId == secretId && v.live).map
    (·.version)).max?.getD 0)

def getSecretVersion (db : Db) (secretId : Uuid) (version : UInt32) :
    Except VaultError VersionRow :=
  match db.versions.get? (secretId, asI32 version) with
  | none => .error (.secretNotFound "" (some version))
  | some v => if v.destroyed then .error (.versionDestroyed version) else .ok v

structure UpsertRequest where
  tenantId : Uuid
  path : String
  engine : Engine
  (ciphertext dekId : String)
  casVersion : Option UInt32
  maxVersions : UInt32
  casRequired : Bool
  customMetadata : Metadata
  environment : SecretEnvironment
  tags : List String

/-- The arguments of the stored function: the first nine, the others have
their defaults. -/
def UpsertRequest.params (r : UpsertRequest) : UpsertParams where
  tenantId := r.tenantId
  path := r.path
  engine := r.engine
  ciphertext := r.ciphertext
  dekId := r.dekId
  casVersion := r.casVersion.map asI32
  maxVersions := asI32 r.maxVersions
  casRequired := r.casRequired
  customMeta := r.customMetadata

/-- Of the texts of the stored function's errors, only that of the CAS check
contains `CAS conflict`. -/
def UpsertRequest.error (r : UpsertRequest) : SqlError → VaultError
  | .casConflict _ _ => .casConflict (r.casVersion.getD 0) 0
  | e => .database e.message

/-- The labels are written by a statement of their own, as the stored function
leaves those of an existing secret alone. -/
def setLabels (db : Db) (now : Timestamp) (r : UpsertRequest) : Db :=
  { db with
    secrets := db.secrets.update (fun s => s.pathKey == (r.tenantId, r.path))
      (SecretRow.setLabels now r.environment r.tags r.customMetadata)
      (SecretRow.pathKey_setLabels now r.environment r.tags r.customMetadata) }

def upsertSecretVersion (db : Db) (now : Timestamp) (freshId : Uuid) (r : UpsertRequest) :
    Except VaultError (Db × (Uuid × UInt32)) :=
  match db.upsertSecret now freshId r.params with
  | .error e => .error (r.error e)
  | .ok (db', secretId, newVersion) => .ok (setLabels db' now r, (secretId, asU32 newVersion))

def softDeleteVersions (db : Db) (now : Timestamp) (secretId : Uuid) (versions : List UInt32) :
    Db × UInt32 :=
  (db.softDeleteVersions now secretId (versions.map asI32)).map id UInt32.ofNat

def destroyVersions (db : Db) (now : Timestamp) (secretId : Uuid) (versions : List UInt32) :
    Db × UInt32 :=
  (db.destroyVersions now secretId (versions.map asI32)).map id UInt32.ofNat

/-- `vault_list_version_history`: the rows of the path's secret, newest first. -/
def listVersionHistory (db : Db) (tenantId : Uuid) (path : String) : List VersionRow :=
  (db.versions.select fun v =>
    db.secrets.rows.any fun s => s.id == v.secretId && s.pathKey == (tenantId, path)).insertionSort
    fun v w => w.version ≤ v.version

/-- Of the texts of the stored function's errors, only that of its own check
contains `not found or expired`. -/
def confirmError (rotationId : String) : SqlError → VaultError
  | .rotationNotFound _ => .invalidOperation ("rotation " ++ rotationId ++ " not found or expired")
  | e => .database e.message

/-- The rotation is looked up by its id, and must be the tenant's; the path is
not an argument. A grace period without an end would make the driver panic. -/
def confirmRotation (db : Db) (now : Timestamp) (tenantId : Uuid)
    (rotationId confirmedBy : String) : Except VaultError (Db × (UInt32 × UInt32 × Timestamp)) :=
  match Uuid.parseStr rotationId with
  | none => .error (.invalidOperation ("invalid rotation_id: " ++ rotationId))
  | some rid =>
    if (db.rotations.get? rid).map (·.tenantId) = some tenantId then
      match db.confirmRotation now rid confirmedBy with
      | .error e => .error (confirmError rotationId e)
      | .ok (_, _, _, none) => .error (.internal "unexpected null")
      | .ok (db', oldVersion, newVersion, some graceEndsAt) =>
        .ok (db', (asU32 oldVersion, asU32 newVersion, graceEndsAt))
    else .error (.invalidOperation ("rotation " ++ rotationId ++ " not found or expired"))

/-- The error is told by its text, which has the path in it. -/
def initiateError (path : String) (e : SqlError) : VaultError :=
  if Text.contains e.message "rotation already pending" then
    .invalidOperation ("rotation already pending for secret: " ++ path)
  else if Text.contains e.message "secret not found" then .secretNotFound path none
  else .database e.message

def initiateRotation (db : Db) (now : Timestamp) (freshId : Uuid) (p : Db.InitiateParams) :
    Except VaultError (Db × (String × UInt32)) :=
  match db.initiateRotation now freshId p with
  | .error e => .error (initiateError p.path e)
  | .ok (db', rotationId, newVersion) => .ok (db', (rotationId.toString, asU32 newVersion))

def rollbackError (path : String) (targetVersion : UInt32) (e : SqlError) : VaultError :=
  if Text.contains e.message "secret not found" then .secretNotFound path none
  else if Text.contains e.message "not found or destroyed" then
    .secretNotFound path (some targetVersion)
  else .database e.message

def rollbackSecret (db : Db) (now : Timestamp) (tenantId : Uuid) (path : String)
    (targetVersion : UInt32) (rolledBackBy : String) : Except VaultError (Db × UInt32) :=
  match db.rollbackSecret now tenantId path (asI32 targetVersion) rolledBackBy with
  | .error e => .error (rollbackError path targetVersion e)
  | .ok (db', newVersion) => .ok (db', asU32 newVersion)

end WslVault.Storage.SecretStore
