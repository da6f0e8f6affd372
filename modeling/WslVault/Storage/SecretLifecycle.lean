import WslVault.Base.Table
import WslVault.Core.Types
import WslVault.Core.Uuid

/-!
# The secret tables and their stored functions

`shared.secrets`, `shared.secret_versions` and `shared.secret_rotations`
(`storage/postgres/init/001_schema.sql`, `010_secret_lifecycle.sql`) with the stored
functions that write them, and those of `003_functions.sql`.

A function runs in a transaction: it gives the tables after it, or an error. `now` is the
transaction's timestamp; the UUIDs that `gen_random_uuid` draws are arguments. `INTEGER`
values are integers, and arithmetic that leaves the type's range is an error. The triggers
that stamp `updated_at` are part of the updates.
-/

namespace WslVault.Storage

open Core Base

inductive Engine where
  | kvV2
  | transit
  | dynamicDatabase
  | ssh
  | pki
  | cloudAws
  | cloudGcp
  | cloudAzure
  deriving DecidableEq, Repr

inductive SecretType where
  | ephemeral
  | staleTtl
  | rotationRequired
  deriving DecidableEq, Repr

inductive SecretRotationStatus where
  | none
  | pending
  | confirmed
  deriving DecidableEq, Repr

inductive VersionStatus where
  | active
  | deprecated
  | revoked
  | pending
  deriving DecidableEq, Repr

inductive RotationStatus where
  | pendingActivation
  | confirmed
  | completed
  | expired
  | failed
  deriving DecidableEq, Repr

/-- A JSONB object of numbers: how far each region had come. -/
abbrev VectorClock := List (String × Int)

/-- A row of `shared.secrets`. `currentVersion` is a write pointer. -/
structure SecretRow where
  (id tenantId : Uuid)
  path : String
  engine : Engine
  (currentVersion maxVersions : Int)
  casRequired : Bool
  customMetadata : Metadata
  (createdAt updatedAt : Timestamp)
  secretType : SecretType
  (ttlSeconds rotationIntervalSeconds gracePeriodSeconds : Option Int)
  webhookUrl : Option String
  (expiresAt lastRotatedAt nextRotationAt : Option Timestamp)
  rotationStatus : SecretRotationStatus
  environment : SecretEnvironment
  tags : List String
  originRegion : Option String
  vectorClock : VectorClock
  deriving DecidableEq

structure VersionRow where
  secretId : Uuid
  version : Int
  (ciphertext dekId : String)
  customMetadata : Metadata
  createdAt : Timestamp
  deletedAt : Option Timestamp
  destroyed : Bool
  status : VersionStatus
  createdBy : Option String
  (deprecatedAt revokedAt : Option Timestamp)
  deriving DecidableEq

structure RotationRow where
  (id secretId tenantId : Uuid)
  path : String
  (oldVersion newVersion : Int)
  status : RotationStatus
  initiatedBy : String
  (confirmedBy webhookUrl : Option String)
  createdAt : Timestamp
  (confirmedAt completedAt graceEndsAt : Option Timestamp)
  expiresAt : Timestamp
  deriving DecidableEq

/-- `UNIQUE (tenant_id, path)`. -/
def SecretRow.pathKey (s : SecretRow) : Uuid × String := (s.tenantId, s.path)

/-- `UNIQUE (secret_id, version)`. -/
def VersionRow.versionKey (v : VersionRow) : Uuid × Int := (v.secretId, v.version)

def VersionRow.live (v : VersionRow) : Bool := v.deletedAt.isNone && !v.destroyed

/-- A rotation that waits for its confirmation, expired or not. -/
def RotationRow.waiting (r : RotationRow) : Bool := r.status == .pendingActivation

/-- The tables, with the ids of the registered tenants. -/
structure Db where
  tenants : List Uuid
  secrets : Table SecretRow SecretRow.pathKey
  versions : Table VersionRow VersionRow.versionKey
  rotations : Table RotationRow RotationRow.id

def Db.empty (tenants : List Uuid) : Db := ⟨tenants, .empty, .empty, .empty⟩

inductive SqlError where
  /-- `RAISE EXCEPTION`, with its error code. -/
  | secretNotFound (path : String)
  | rotationPending (path : String)
  | rotationNotFound (rotationId : Uuid)
  | versionNotFound (version : Int) (path : String)
  | casConflict (expected actual : Int)
  /-- Raised by the database. -/
  | uniqueViolation (constraint : String)
  | foreignKeyViolation (table constraint : String)
  | checkViolation (table constraint : String)
  | invalidUuid (text : String)
  | integerOutOfRange
  | valueTooLong (limit : Nat)
  deriving DecidableEq

def SqlError.message (e : SqlError) : String :=
  "error returned from database: " ++
    match e with
    | secretNotFound path => "secret not found: " ++ path
    | rotationPending path => "rotation already pending for secret: " ++ path
    | rotationNotFound id => "rotation " ++ id.toString ++ " not found or expired"
    | versionNotFound version path =>
      "version " ++ toString version ++ " not found or destroyed for secret " ++ path
    | casConflict expected actual =>
      "CAS conflict: expected version " ++ toString expected ++ ", got " ++ toString actual
    | uniqueViolation constraint =>
      "duplicate key value violates unique constraint \"" ++ constraint ++ "\""
    | foreignKeyViolation table constraint =>
      "insert or update on table \"" ++ table ++ "\" violates foreign key constraint \"" ++
        constraint ++ "\""
    | checkViolation table constraint =>
      "new row for relation \"" ++ table ++ "\" violates check constraint \"" ++ constraint ++
        "\""
    | invalidUuid text => "invalid input syntax for type uuid: \"" ++ text ++ "\""
    | integerOutOfRange => "integer out of range"
    | valueTooLong limit =>
      "value too long for type character varying(" ++ toString limit ++ ")"

def Int4 (n : Int) : Prop := -2147483648 ≤ n ∧ n ≤ 2147483647

instance (n : Int) : Decidable (Int4 n) := inferInstanceAs (Decidable (_ ∧ _))

def int4 (n : Int) : Except SqlError Int := if Int4 n then .ok n else .error .integerOutOfRange

/-! ## Changes of single rows

Each keeps the key of its table.
-/

namespace SecretRow

def setCurrentVersion (version : Int) (s : SecretRow) : SecretRow :=
  { s with currentVersion := version }

theorem pathKey_setCurrentVersion (version : Int) (s : SecretRow) :
    (s.setCurrentVersion version).pathKey = s.pathKey := rfl

/-- `trg_secrets_updated_at`: every `UPDATE` stamps the row. -/
def touch (now : Timestamp) (s : SecretRow) : SecretRow := { s with updatedAt := now }

def setRotationPending (s : SecretRow) : SecretRow := { s with rotationStatus := .pending }

theorem pathKey_setRotationPending (s : SecretRow) : s.setRotationPending.pathKey = s.pathKey := rfl

/-- The labels a write through the secret store gives the row. -/
def setLabels (now : Timestamp) (environment : SecretEnvironment) (tags : List String)
    (customMetadata : Metadata) (s : SecretRow) : SecretRow :=
  { s with
    environment := environment
    tags := tags
    customMetadata := customMetadata
    updatedAt := now }

theorem pathKey_setLabels (now : Timestamp) (environment : SecretEnvironment)
    (tags : List String) (customMetadata : Metadata) (s : SecretRow) :
    (s.setLabels now environment tags customMetadata).pathKey = s.pathKey := rfl

def rotate (now : Timestamp) (newVersion : Int) (s : SecretRow) : SecretRow :=
  { s with
    currentVersion := newVersion
    rotationStatus := .confirmed
    lastRotatedAt := some now
    nextRotationAt := s.rotationIntervalSeconds.map fun i => now + seconds i }

theorem pathKey_rotate (now : Timestamp) (newVersion : Int) (s : SecretRow) :
    (s.rotate now newVersion).pathKey = s.pathKey := rfl

end SecretRow

namespace VersionRow

def activate (v : VersionRow) : VersionRow := { v with status := .active }

theorem versionKey_activate (v : VersionRow) : v.activate.versionKey = v.versionKey := rfl

def retire (now : Timestamp) (v : VersionRow) : VersionRow :=
  { v with status := .deprecated, deprecatedAt := some now }

theorem versionKey_retire (now : Timestamp) (v : VersionRow) :
    (v.retire now).versionKey = v.versionKey := rfl

def softDelete (now : Timestamp) (v : VersionRow) : VersionRow := { v with deletedAt := some now }

theorem versionKey_softDelete (now : Timestamp) (v : VersionRow) :
    (v.softDelete now).versionKey = v.versionKey := rfl

/-- The data is wiped, the row stays. -/
def destroy (now : Timestamp) (v : VersionRow) : VersionRow :=
  { v with
    ciphertext := ""
    dekId := ""
    destroyed := true
    deletedAt := some (v.deletedAt.getD now) }

theorem versionKey_destroy (now : Timestamp) (v : VersionRow) :
    (v.destroy now).versionKey = v.versionKey := rfl

def revoke (now : Timestamp) (v : VersionRow) : VersionRow :=
  { v.destroy now with status := .revoked, revokedAt := some now }

theorem versionKey_revoke (now : Timestamp) (v : VersionRow) :
    (v.revoke now).versionKey = v.versionKey := rfl

end VersionRow

namespace RotationRow

def confirm (now : Timestamp) (confirmedBy : String) (graceEnd : Option Timestamp)
    (r : RotationRow) : RotationRow :=
  { r with
    status := .confirmed
    confirmedBy := some confirmedBy
    confirmedAt := some now
    graceEndsAt := graceEnd }

theorem id_confirm (now : Timestamp) (confirmedBy : String) (graceEnd : Option Timestamp)
    (r : RotationRow) : (r.confirm now confirmedBy graceEnd).id = r.id := rfl

def complete (now : Timestamp) (r : RotationRow) : RotationRow :=
  { r with status := .completed, completedAt := some now }

theorem id_complete (now : Timestamp) (r : RotationRow) : (r.complete now).id = r.id := rfl

end RotationRow

structure VersionChange where
  still : VersionRow → Bool
  made : VersionRow → VersionRow
  key : ∀ v, (made v).versionKey = v.versionKey

namespace Db

def insertVersion (db : Db) (v : VersionRow) : Except SqlError Db :=
  match db.versions.insert? v with
  | some versions => .ok { db with versions := versions }
  | none => .error (.uniqueViolation "secret_versions_secret_id_version_key")

def insertRotation (db : Db) (r : RotationRow) : Except SqlError Db :=
  match db.rotations.insert? r with
  | some rotations => .ok { db with rotations := rotations }
  | none => .error (.uniqueViolation "secret_rotations_pkey")

def updateSecret (db : Db) (now : Timestamp) (id : Uuid) (f : SecretRow → SecretRow)
    (hf : ∀ s, (f s).pathKey = s.pathKey) : Db :=
  { db with secrets := db.secrets.update (fun s => s.id = id) (fun s => (f s).touch now) hf }

def setCurrentVersion (db : Db) (now : Timestamp) (id : Uuid) (version : Int) : Db :=
  db.updateSecret now id (SecretRow.setCurrentVersion version)
    (SecretRow.pathKey_setCurrentVersion version)

def updateVersions (db : Db) (p : VersionRow → Bool) (f : VersionRow → VersionRow)
    (hf : ∀ v, (f v).versionKey = v.versionKey) : Db :=
  { db with versions := db.versions.update p f hf }

end Db

/-! ## `vault_upsert_secret` -/

structure UpsertParams where
  tenantId : Uuid
  path : String
  engine : Engine
  (ciphertext dekId : String)
  casVersion : Option Int := none
  maxVersions : Int := 10
  casRequired : Bool := false
  customMeta : Metadata := ∅
  createdBy : Option String := none
  secretType : SecretType := .staleTtl
  ttlSeconds : Option Int := none
  rotationInterval : Option Int := none
  graceSecs : Option Int := some 3600
  webhookUrl : Option String := none

namespace UpsertParams

variable (p : UpsertParams)

def expiresAt (now : Timestamp) : Option Timestamp :=
  p.ttlSeconds.map fun s => now + seconds s

def nextRotationAt (now : Timestamp) : Option Timestamp :=
  p.rotationInterval.map fun s => now + seconds s

def newSecret (now : Timestamp) (id : Uuid) : SecretRow where
  id := id
  tenantId := p.tenantId
  path := p.path
  engine := p.engine
  currentVersion := 0
  maxVersions := p.maxVersions
  casRequired := p.casRequired
  customMetadata := p.customMeta
  createdAt := now
  updatedAt := now
  secretType := p.secretType
  ttlSeconds := p.ttlSeconds
  rotationIntervalSeconds := p.rotationInterval
  gracePeriodSeconds := p.graceSecs
  webhookUrl := p.webhookUrl
  expiresAt := p.expiresAt now
  lastRotatedAt := none
  nextRotationAt := p.nextRotationAt now
  rotationStatus := .none
  environment := .int
  tags := []
  originRegion := none
  vectorClock := []

/-- `ON CONFLICT … DO UPDATE`: the lifecycle columns follow the latest write. -/
def refresh (now : Timestamp) (s : SecretRow) : SecretRow :=
  { s with
    updatedAt := now
    secretType := p.secretType
    ttlSeconds := p.ttlSeconds <|> s.ttlSeconds
    rotationIntervalSeconds := p.rotationInterval <|> s.rotationIntervalSeconds
    gracePeriodSeconds := p.graceSecs <|> s.gracePeriodSeconds
    webhookUrl := p.webhookUrl <|> s.webhookUrl
    expiresAt := p.expiresAt now <|> s.expiresAt
    nextRotationAt := p.nextRotationAt now <|> s.nextRotationAt }

theorem pathKey_refresh (p : UpsertParams) (now : Timestamp) (s : SecretRow) :
    (p.refresh now s).pathKey = s.pathKey := rfl

def newVersion (now : Timestamp) (secretId : Uuid) (version : Int) : VersionRow where
  secretId := secretId
  version := version
  ciphertext := p.ciphertext
  dekId := p.dekId
  customMetadata := p.customMeta
  createdAt := now
  deletedAt := none
  destroyed := false
  status := .active
  createdBy := p.createdBy
  deprecatedAt := none
  revokedAt := none

end UpsertParams

namespace Db

/-- The upsert of the secret's own row, with the row it leaves. -/
def upsertSecretRow (db : Db) (now : Timestamp) (freshId : Uuid) (p : UpsertParams) :
    Except SqlError (Db × SecretRow) :=
  match db.secrets.get? (p.tenantId, p.path) with
  | some s =>
    .ok ({ db with
        secrets := db.secrets.update (fun r => r.pathKey == (p.tenantId, p.path)) (p.refresh now)
          (p.pathKey_refresh now) }, p.refresh now s)
  | none =>
    if db.secrets.rows.any (·.id == freshId) then .error (.uniqueViolation "secrets_pkey")
    else
      match db.secrets.insert? (p.newSecret now freshId) with
      | none => .error (.uniqueViolation "secrets_tenant_id_path_key")
      | some secrets =>
        if p.tenantId ∈ db.tenants then
          .ok ({ db with secrets := secrets }, p.newSecret now freshId)
        else .error (.foreignKeyViolation "secrets" "secrets_tenant_id_fkey")

def pruneVersions (db : Db) (secretId : Uuid) (upTo : Int) : Db :=
  { db with
    versions := db.versions.delete fun v =>
      v.secretId == secretId && decide (v.version ≤ upTo) && !v.destroyed }

def casCheck (p : UpsertParams) (s : SecretRow) : Except SqlError Unit :=
  match p.casVersion.filter (· ≠ s.currentVersion) with
  | some expected => .error (.casConflict expected s.currentVersion)
  | none => .ok ()

def upsertSecret (db : Db) (now : Timestamp) (freshId : Uuid) (p : UpsertParams) :
    Except SqlError (Db × (Uuid × Int)) := do
  let (db, s) ← db.upsertSecretRow now freshId p
  casCheck p s
  let newVersion ← int4 (s.currentVersion + 1)
  let db ← db.insertVersion (p.newVersion now s.id newVersion)
  let upTo ← int4 (newVersion - p.maxVersions)
  return ((db.setCurrentVersion now s.id newVersion).pruneVersions s.id upTo, (s.id, newVersion))

/-! ## The rotation workflow -/

structure InitiateParams where
  tenantId : Uuid
  (path ciphertext dekId initiatedBy : String)
  webhookUrl : Option String := none
  timeoutSecs : Option Int := some 86400

def InitiateParams.pendingVersion (p : InitiateParams) (now : Timestamp) (secretId : Uuid)
    (version : Int) : VersionRow where
  secretId := secretId
  version := version
  ciphertext := p.ciphertext
  dekId := p.dekId
  customMetadata := ∅
  createdAt := now
  deletedAt := none
  destroyed := false
  status := .pending
  createdBy := some p.initiatedBy
  deprecatedAt := none
  revokedAt := none

def InitiateParams.rotation (p : InitiateParams) (now : Timestamp) (id secretId : Uuid)
    (oldVersion newVersion : Int) : RotationRow where
  id := id
  secretId := secretId
  tenantId := p.tenantId
  path := p.path
  oldVersion := oldVersion
  newVersion := newVersion
  status := .pendingActivation
  initiatedBy := p.initiatedBy
  confirmedBy := none
  webhookUrl := p.webhookUrl
  createdAt := now
  confirmedAt := none
  completedAt := none
  graceEndsAt := none
  expiresAt := now + seconds (p.timeoutSecs.getD 86400)

/-- Some rotation of the secret waits for its confirmation, expired or not. -/
def rotationPending (db : Db) (secretId : Uuid) : Bool :=
  db.rotations.rows.any fun r => r.secretId == secretId && r.status == .pendingActivation

def findSecret (db : Db) (tenantId : Uuid) (path : String) : Except SqlError SecretRow :=
  match db.secrets.get? (tenantId, path) with
  | none => .error (.secretNotFound path)
  | some s => .ok s

def rejectPending (db : Db) (secretId : Uuid) (path : String) : Except SqlError Unit :=
  if db.rotationPending secretId then .error (.rotationPending path) else .ok ()

def markPending (db : Db) (now : Timestamp) (secretId : Uuid) : Db :=
  db.updateSecret now secretId SecretRow.setRotationPending SecretRow.pathKey_setRotationPending

def initiateRotation (db : Db) (now : Timestamp) (freshId : Uuid) (p : InitiateParams) :
    Except SqlError (Db × (Uuid × Int)) := do
  let s ← db.findSecret p.tenantId p.path
  db.rejectPending s.id p.path
  let newVersion ← int4 (s.currentVersion + 1)
  let db ← db.insertVersion (p.pendingVersion now s.id newVersion)
  let db ← db.insertRotation (p.rotation now freshId s.id s.currentVersion newVersion)
  return (db.markPending now s.id, (freshId, newVersion))

/-- `grace_period_seconds` of the secret, an hour by default. -/
def gracePeriod (db : Db) (secretId : Uuid) : Option Int :=
  (db.secrets.rows.find? (·.id == secretId)).map (·.gracePeriodSeconds.getD 3600)

/-- The rotation a confirmation may take: waiting and not past its window. -/
def findConfirmable (db : Db) (now : Timestamp) (rotationId : Uuid) : Except SqlError RotationRow :=
  match (db.rotations.get? rotationId).filter fun r =>
      r.status == .pendingActivation && decide (r.expiresAt > now) with
  | none => .error (.rotationNotFound rotationId)
  | some r => .ok r

def graceEnd (db : Db) (now : Timestamp) (r : RotationRow) : Option Timestamp :=
  (db.gracePeriod r.secretId).map fun s => now + seconds s

def activate (db : Db) (now : Timestamp) (r : RotationRow) : Db :=
  (db.updateVersions (fun v => v.secretId == r.secretId && v.version == r.newVersion)
    VersionRow.activate VersionRow.versionKey_activate).updateVersions
    (fun v => v.secretId == r.secretId && v.version == r.oldVersion)
    (VersionRow.retire now) (VersionRow.versionKey_retire now)

def confirmRotation (db : Db) (now : Timestamp) (rotationId : Uuid) (confirmedBy : String) :
    Except SqlError (Db × (Int × Int × Option Timestamp)) := do
  let r ← db.findConfirmable now rotationId
  let db' := (db.activate now r).updateSecret now r.secretId (SecretRow.rotate now r.newVersion)
    (SecretRow.pathKey_rotate now r.newVersion)
  return ({ db' with
      rotations := db.rotations.update (fun x => x.id == rotationId)
        (RotationRow.confirm now confirmedBy (db.graceEnd now r))
        (RotationRow.id_confirm now confirmedBy (db.graceEnd now r)) },
    (r.oldVersion, r.newVersion, db.graceEnd now r))

/-- The rotations one call revokes: of the confirmed ones past their grace
period, some, at most a batch. Which ones `LIMIT` and `SKIP LOCKED` leave is
the database's choice, here those of `picked`. -/
def toRevoke (db : Db) (now : Timestamp) (batchSize : Nat) (picked : List Uuid) :
    List RotationRow :=
  (db.rotations.select fun r =>
    r.status == .confirmed && r.graceEndsAt.any (· < now) && picked.contains r.id).take batchSize

def revokeDeprecatedVersions (db : Db) (now : Timestamp) (batchSize : Nat) (picked : List Uuid) :
    Db × List Uuid :=
  let chosen := db.toRevoke now batchSize picked
  ({ db.updateVersions
      (fun v => chosen.any fun r => v.secretId == r.secretId && v.version == r.oldVersion)
      (VersionRow.revoke now) (VersionRow.versionKey_revoke now) with
      rotations := db.rotations.update (fun r => chosen.any (·.id == r.id))
        (RotationRow.complete now) (RotationRow.id_complete now) },
    chosen.map (·.id))

/-! ## `vault_rollback_secret` -/

def rolledBack (target : VersionRow) (now : Timestamp) (version : Int) (by_ : String) :
    VersionRow where
  secretId := target.secretId
  version := version
  ciphertext := target.ciphertext
  dekId := target.dekId
  customMetadata := target.customMetadata
  createdAt := now
  deletedAt := none
  destroyed := false
  status := .active
  createdBy := some by_
  deprecatedAt := none
  revokedAt := none

def findTarget (db : Db) (s : SecretRow) (targetVersion : Int) : Except SqlError VersionRow :=
  match (db.versions.get? (s.id, targetVersion)).filter (!·.destroyed) with
  | none => .error (.versionNotFound targetVersion s.path)
  | some target => .ok target

def deprecateCurrent (db : Db) (now : Timestamp) (s : SecretRow) : Db :=
  db.updateVersions
    (fun v => v.secretId == s.id && v.version == s.currentVersion && v.status == .active)
    (VersionRow.retire now) (VersionRow.versionKey_retire now)

def rollbackSecret (db : Db) (now : Timestamp) (tenantId : Uuid) (path : String)
    (targetVersion : Int) (rolledBackBy : String) : Except SqlError (Db × Int) := do
  let s ← db.findSecret tenantId path
  let target ← db.findTarget s targetVersion
  let newVersion ← int4 (s.currentVersion + 1)
  let db ← db.insertVersion (rolledBack target now newVersion rolledBackBy)
  return ((db.deprecateCurrent now s).setCurrentVersion now s.id newVersion, newVersion)

/-- What happens to the rows with these numbers that it still can happen to, and how many
these are. -/
def changeVersions (db : Db) (c : VersionChange) (secretId : Uuid) (versions : List Int) :
    Db × Nat :=
  let hit := fun v : VersionRow =>
    v.secretId == secretId && (versions.contains v.version && c.still v)
  (db.updateVersions hit c.made c.key, db.versions.rows.countP hit)

def softDeleteVersions (db : Db) (now : Timestamp) : Uuid → List Int → Db × Nat :=
  db.changeVersions ⟨VersionRow.live, .softDelete now, VersionRow.versionKey_softDelete now⟩

def destroyVersions (db : Db) (now : Timestamp) : Uuid → List Int → Db × Nat :=
  db.changeVersions ⟨(!·.destroyed), .destroy now, VersionRow.versionKey_destroy now⟩

end Db

inductive Op where
  | upsert (now : Timestamp) (freshId : Uuid) (p : UpsertParams)
  | initiate (now : Timestamp) (freshId : Uuid) (p : Db.InitiateParams)
  | confirm (now : Timestamp) (rotationId : Uuid) (confirmedBy : String)
  | rollback (now : Timestamp) (tenantId : Uuid) (path : String) (target : Int) (by_ : String)
  | softDelete (now : Timestamp) (secretId : Uuid) (versions : List Int)
  | destroy (now : Timestamp) (secretId : Uuid) (versions : List Int)
  | revoke (now : Timestamp) (batchSize : Nat) (picked : List Uuid)
  | markPending (now : Timestamp) (secretId : Uuid)

namespace Db

def transact {α : Type} (db : Db) : Except SqlError (Db × α) → Db × Option SqlError
  | .ok (db', _) => (db', none)
  | .error e => (db, some e)

def step (db : Db) : Op → Db × Option SqlError
  | .upsert now freshId p => db.transact (db.upsertSecret now freshId p)
  | .initiate now freshId p => db.transact (db.initiateRotation now freshId p)
  | .confirm now rotationId by_ => db.transact (db.confirmRotation now rotationId by_)
  | .rollback now tenantId path target by_ =>
    db.transact (db.rollbackSecret now tenantId path target by_)
  | .softDelete now secretId versions => ((db.softDeleteVersions now secretId versions).1, none)
  | .destroy now secretId versions => ((db.destroyVersions now secretId versions).1, none)
  | .revoke now batchSize picked =>
    ((db.revokeDeprecatedVersions now batchSize picked).1, none)
  | .markPending now secretId => (db.markPending now secretId, none)

end Db

end WslVault.Storage
