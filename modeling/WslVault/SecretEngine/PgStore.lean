import WslVault.SecretEngine.KvStore
import WslVault.Storage.SecretStore

/-!
# The PostgreSQL backend

`PgSecretBackend` of the secret engine (`services/secret-engine/src/pg_store.rs`)
serves the requests of the in-memory store from the secret tables. Every
request runs in one transaction. The quota check of a write is in
`SecretEngine.Quota`; the outbox event after it is not part of the model.
-/

namespace WslVault.SecretEngine

open Core Storage

/-- An empty list means the version of the write pointer. -/
def resolveSoftDeleteTargets (requested : List UInt32) (currentVersion : UInt32) : List UInt32 :=
  if !requested.isEmpty then requested
  else if currentVersion = 0 then []
  else [currentVersion]

/-- An empty list means every version not destroyed yet. -/
def resolveDestroyTargets (requested liveVersions : List UInt32) : List UInt32 :=
  if !requested.isEmpty then requested else liveVersions

def entryOfRow (sv : VersionRow) : VersionEntry where
  version := asU32 sv.version
  ciphertext := sv.ciphertext
  dekId := sv.dekId
  createdAt := sv.createdAt
  deletedAt := sv.deletedAt
  destroyed := sv.destroyed
  customMetadata := sv.customMetadata

abbrev PgSecretBackend := Db

namespace PgSecretBackend

def parseTenantId (tenantId : String) : Except VaultError Uuid :=
  match Uuid.parseStr tenantId with
  | some tid => .ok tid
  | none => .error (.validationError "tenant_id" ("'" ++ tenantId ++ "' is not a valid UUID"))

def get (db : PgSecretBackend) (tenantId path : String) (version : Option UInt32) :
    Except VaultError VersionEntry := do
  let tid ← parseTenantId tenantId
  let secret ← SecretStore.getSecretMetadata db tid path
  let targetVersion := version.getD (SecretStore.latestLiveVersion db secret.id)
  if targetVersion = 0 then .error (.secretNotFound path none)
  else
    let sv ← SecretStore.getSecretVersion db secret.id targetVersion
    return entryOfRow sv

def upsertRequest (tid : Uuid) (r : PutRequest) : SecretStore.UpsertRequest where
  tenantId := tid
  path := r.path
  engine := .kvV2
  ciphertext := r.ciphertext
  dekId := r.dekId
  casVersion := r.cas
  maxVersions := r.maxVersions.getD 10
  casRequired := r.cas.isSome
  customMetadata := r.customMetadata
  environment := ((r.customMetadata.lookup "environment").bind SecretEnvironment.fromStr).getD .int
  tags := ((r.customMetadata.lookup "tags").map parseTags).getD []

def commit {α : Type} (db : PgSecretBackend) :
    Except VaultError (PgSecretBackend × α) → PgSecretBackend × Except VaultError α
  | .ok (db', a) => (db', .ok a)
  | .error e => (db, .error e)

/-- `freshId` is the id `gen_random_uuid` draws for a new path. -/
def put (db : PgSecretBackend) (freshId : Uuid) (r : PutRequest) :
    PgSecretBackend × Except VaultError (String × UInt32) :=
  db.commit do
    let tid ← parseTenantId r.tenantId
    let (db', secretId, version) ← SecretStore.upsertSecretVersion db r.now freshId
      (upsertRequest tid r)
    return (db', (secretId.toString, version))

def confirmRotation (db : PgSecretBackend) (now : Timestamp)
    (tenantId rotationId confirmedBy : String) :
    PgSecretBackend × Except VaultError (UInt32 × UInt32 × Timestamp) :=
  db.commit do
    let tid ← parseTenantId tenantId
    SecretStore.confirmRotation db now tid rotationId confirmedBy

/-- `freshId` is the id drawn for the rotation. -/
def initiateRotation (db : PgSecretBackend) (now : Timestamp) (freshId : Uuid)
    (tenantId path ciphertext dekId initiatedBy : String) (webhookUrl : Option String)
    (timeoutSecs : Option Int) : PgSecretBackend × Except VaultError (String × UInt32) :=
  db.commit do
    let tid ← parseTenantId tenantId
    SecretStore.initiateRotation db now freshId
      { tenantId := tid, path := path, ciphertext := ciphertext, dekId := dekId,
        initiatedBy := initiatedBy, webhookUrl := webhookUrl, timeoutSecs := timeoutSecs }

def rollback (db : PgSecretBackend) (now : Timestamp) (tenantId path : String)
    (targetVersion : UInt32) (rolledBackBy : String) : PgSecretBackend × Except VaultError UInt32 :=
  db.commit do
    let tid ← parseTenantId tenantId
    SecretStore.rollbackSecret db now tid path targetVersion rolledBackBy

/-- No statement is sent if there is nothing to change. -/
def changeVersions (db : PgSecretBackend) (tenantId path : String)
    (targets : Uuid → SecretStore.SecretMetadata → List UInt32)
    (change : Uuid → List UInt32 → Db × UInt32) : PgSecretBackend × Except VaultError UInt32 :=
  db.commit do
    let tid ← parseTenantId tenantId
    let secret ← SecretStore.getSecretMetadata db tid path
    let versions := targets tid secret
    if versions.isEmpty then return (db, 0) else return change secret.id versions

def softDelete (db : PgSecretBackend) (now : Timestamp) (tenantId path : String)
    (versions : List UInt32) : PgSecretBackend × Except VaultError UInt32 :=
  db.changeVersions tenantId path
    (fun _ secret => resolveSoftDeleteTargets versions secret.currentVersion)
    (SecretStore.softDeleteVersions db now)

/-- What an empty list of versions stands for; the history is read only then. -/
def undestroyedVersions (db : PgSecretBackend) (tid : Uuid) (path : String) : List UInt32 :=
  ((SecretStore.listVersionHistory db tid path).filter (!·.destroyed)).map (asU32 ·.version)

def destroy (db : PgSecretBackend) (now : Timestamp) (tenantId path : String)
    (versions : List UInt32) : PgSecretBackend × Except VaultError UInt32 :=
  db.changeVersions tenantId path
    (fun tid _ => resolveDestroyTargets versions (undestroyedVersions db tid path))
    (SecretStore.destroyVersions db now)

def serve (db : PgSecretBackend) (freshId : Uuid) : Request → PgSecretBackend × Reply
  | .get tenantId path version => (db, .got (db.get tenantId path version))
  | .put r => ((db.put freshId r).1, .wrote (db.put freshId r).2)
  | .softDelete now tenantId path versions =>
    let out := db.softDelete now tenantId path versions
    (out.1, .changed out.2)
  | .destroy now tenantId path versions =>
    let out := db.destroy now tenantId path versions
    (out.1, .changed out.2)

end PgSecretBackend

instance : SecretStoreBackend PgSecretBackend where
  get := PgSecretBackend.get
  put := PgSecretBackend.put
  confirmRotation := PgSecretBackend.confirmRotation

end WslVault.SecretEngine
