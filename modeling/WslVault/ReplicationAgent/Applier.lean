import WslVault.Base.Base64
import WslVault.Core.Json
import WslVault.ReplicationAgent.Conflict
import WslVault.Storage.ApiKeyStore

/-!
# Applying the events of peer regions

`apply_event` of `services/replication-agent/src/applier.rs` on the tables of one region. An
event is applied in one transaction. `now` is its timestamp, and an `UPDATE` is stamped with
it by the `updated_at` triggers, whatever the statement sets. Data-encryption keys, regions
and audit records are in tables of their own; what the statements on those answer is an
input (`elsewhere`).
-/

namespace WslVault.ReplicationAgent

open Core Base Storage

structure PolicyRow where
  tenantId : Uuid
  name : String
  document : Json
  (createdAt updatedAt : Timestamp)

def PolicyRow.nameKey (p : PolicyRow) : Uuid × String := (p.tenantId, p.name)

def PolicyRow.touch (now : Timestamp) (p : PolicyRow) : PolicyRow := { p with updatedAt := now }

structure RegionDb where
  tenants : TenantTable
  policies : Table PolicyRow PolicyRow.nameKey
  secrets : Table SecretRow SecretRow.pathKey
  versions : Table VersionRow VersionRow.versionKey
  rotations : Table RotationRow RotationRow.id
  apiKeys : ApiKeyTable

namespace RegionDb

def db (r : RegionDb) : Db := ⟨r.tenants.rows.map (·.id), r.secrets, r.versions, r.rotations⟩

def withDb (r : RegionDb) (db : Db) : RegionDb :=
  { r with secrets := db.secrets, versions := db.versions, rotations := db.rotations }

end RegionDb

inductive EventType where
  | dekUpsert
  | secretUpsert
  | secretDelete
  | secretDestroy
  | keyRotate
  | policyUpdate
  | tenantUpdate
  | apiKeyUpsert
  | regionFailover
  | regionPromote
  | other (name : String)
  deriving DecidableEq, Repr

/-- What the applier reads of an event's payload: `payload[k].as_str()` for the
texts, and the values that are no texts. A list or a time that does not parse is
empty, and so is a number. -/
structure Payload where
  texts : List (String × String)
  versions : List Int := []
  document : Option Json := none
  deletedAt : Option Timestamp := none
  policies : List String := []
  pathPrefixes : List String := []
  expiresAt : Option Timestamp := none
  revokedAt : Option Timestamp := none
  rateLimitPerMinute : Option Int := none

/-- A vector clock that does not parse reads as the empty one. -/
structure ReplicationEvent where
  id : Uuid
  eventType : EventType
  sourceRegion : String
  payload : Payload
  vectorClock : VectorClock
  createdAt : Timestamp

inductive ApplyError where
  | payload (message : String)
  | database (e : SqlError)

def ReplicationEvent.field (e : ReplicationEvent) (key : String) (context : String) :
    Except ApplyError String :=
  match e.payload.texts.lookup key with
  | some text => .ok text
  | none => .error (.payload ("missing " ++ key ++ context))

def castUuid (text : String) : Except ApplyError Uuid :=
  match Uuid.ofPg text with
  | some id => .ok id
  | none => .error (.database (.invalidUuid text))

namespace RegionDb

def conflictContext (localRegion : String) (s : SecretRow) (e : ReplicationEvent) :
    ConflictContext where
  localUpdatedAt := some s.updatedAt
  remoteUpdatedAt := e.createdAt
  localVectorClock := s.vectorClock
  remoteVectorClock := e.vectorClock
  localRegion := localRegion
  remoteRegion := e.sourceRegion

/-- The arguments of `vault_upsert_secret` for a replicated write. -/
def replicatedWrite (tenantId : Uuid) (path ciphertext dekId : String) : UpsertParams where
  tenantId := tenantId
  path := path
  engine := .kvV2
  ciphertext := ciphertext
  dekId := dekId
  casVersion := none
  maxVersions := 10
  casRequired := false
  customMeta := ∅

def setOrigin (e : ReplicationEvent) (s : SecretRow) : SecretRow :=
  { s with originRegion := some e.sourceRegion, vectorClock := e.vectorClock }

theorem pathKey_setOrigin (now : Timestamp) (e : ReplicationEvent) (s : SecretRow) :
    ((setOrigin e s).touch now).pathKey = s.pathKey := rfl

def acceptSecret (now : Timestamp) (freshId : Uuid) (r : RegionDb) (e : ReplicationEvent)
    (p : UpsertParams) : Except ApplyError RegionDb :=
  match r.db.upsertSecret now freshId p with
  | .error err => .error (.database err)
  | .ok (db, _) =>
    .ok (r.withDb { db with
      secrets := db.secrets.update (fun s => s.pathKey == (p.tenantId, p.path))
        (fun s => (setOrigin e s).touch now) (pathKey_setOrigin now e) })

/-- `freshId` is the id drawn for a path without a row. -/
def applySecretUpsert (strategy localRegion : String) (now : Timestamp) (freshId : Uuid)
    (r : RegionDb) (e : ReplicationEvent) : Except ApplyError RegionDb := do
  let tenantId ← e.field "tenant_id" " in secret_upsert payload"
  let path ← e.field "path" " in secret_upsert payload"
  let ciphertext ← e.field "ciphertext" " in secret_upsert payload"
  let dekId ← e.field "dek_id" " in secret_upsert payload"
  let tid ← castUuid tenantId
  let write := replicatedWrite tid path ciphertext dekId
  match r.secrets.get? (tid, path) with
  | none => r.acceptSecret now freshId e write
  | some s =>
    match resolve strategy (conflictContext localRegion s e) with
    | .keepLocal => return r
    | .manualReview => return r
    | .acceptRemote => r.acceptSecret now freshId e write

/-- A deletion or destruction of versions of a path that exists; an empty list
reads no path. -/
def applyVersions (change : Db → Uuid → List Int → Db) (r : RegionDb) (e : ReplicationEvent) :
    Except ApplyError RegionDb := do
  let tenantId ← e.field "tenant_id" ""
  let path ← e.field "path" ""
  if e.payload.versions.isEmpty then return r
  else
    let tid ← castUuid tenantId
    match r.secrets.get? (tid, path) with
    | none => return r
    | some s => return r.withDb (change r.db s.id e.payload.versions)

def applySecretDelete (now : Timestamp) :
    RegionDb → ReplicationEvent → Except ApplyError RegionDb :=
  applyVersions fun db id versions => (db.softDeleteVersions now id versions).1

def applySecretDestroy (now : Timestamp) :
    RegionDb → ReplicationEvent → Except ApplyError RegionDb :=
  applyVersions fun db id versions => (db.destroyVersions now id versions).1

end RegionDb

/-! ## Policies and tenants

Both are upserts that leave a row alone whose `updated_at` is later than the
event's `created_at`. An inserted row gets the event's time; the update sets it
too, but the trigger then stamps the row with the time of the transaction.
-/

namespace PolicyRow

def ofEvent (now : Timestamp) (tenantId : Uuid) (name : String) (document : Json)
    (createdAt : Timestamp) : PolicyRow where
  tenantId := tenantId
  name := name
  document := document
  createdAt := now
  updatedAt := createdAt

/-- `DO UPDATE SET document, updated_at`. -/
def replicate (now : Timestamp) (document : Json) (createdAt : Timestamp) (p : PolicyRow) :
    PolicyRow :=
  touch now { p with document := document, updatedAt := createdAt }

theorem nameKey_replicate (now : Timestamp) (document : Json) (createdAt : Timestamp)
    (p : PolicyRow) : (p.replicate now document createdAt).nameKey = p.nameKey := rfl

end PolicyRow

namespace RegionDb

def requireDocument (e : ReplicationEvent) : Except ApplyError Json :=
  match e.payload.document with
  | some document => .ok document
  | none => .error (.payload "missing document in policy_update payload")

def insertPolicy (r : RegionDb) (p : PolicyRow) : Except ApplyError RegionDb :=
  match r.policies.insert? p with
  | none => .error (.database (.uniqueViolation "policies_tenant_id_name_key"))
  | some policies =>
    if p.tenantId ∈ r.db.tenants then .ok { r with policies := policies }
    else .error (.database (.foreignKeyViolation "policies" "policies_tenant_id_fkey"))

def applyPolicyUpdate (now : Timestamp) (r : RegionDb) (e : ReplicationEvent) :
    Except ApplyError RegionDb := do
  let tenantId ← e.field "tenant_id" " in policy_update payload"
  let name ← e.field "name" " in policy_update payload"
  let document ← requireDocument e
  let tid ← castUuid tenantId
  match r.policies.get? (tid, name) with
  | none => r.insertPolicy (.ofEvent now tid name document e.createdAt)
  | some p =>
    if p.updatedAt > e.createdAt then return r
    else
      return { r with
        policies := r.policies.update (fun p => p.nameKey == (tid, name))
          (PolicyRow.replicate now document e.createdAt)
          (PolicyRow.nameKey_replicate now document e.createdAt) }

end RegionDb

structure TenantUpdate where
  (slug displayName : String)
  tier : TenantTier
  rootKeyId : String
  deletedAt : Option Timestamp
  deriving DecidableEq

/-- What replication has written of a tenant. -/
def TenantUpdate.ofRow (t : TenantRow) : TenantUpdate :=
  ⟨t.slug, t.displayName, t.tier, t.rootKeyId, t.deletedAt⟩

namespace TenantUpdate

/-- The row inserted for a new tenant; the environments, the tags and the kind
are the columns' defaults. -/
def newRow (u : TenantUpdate) (now : Timestamp) (id : Uuid) (createdAt : Timestamp) :
    TenantRow where
  id := id
  slug := u.slug
  displayName := u.displayName
  tier := u.tier
  rootKeyId := u.rootKeyId
  createdAt := now
  updatedAt := createdAt
  deletedAt := u.deletedAt
  tenantKind := .project
  allowedEnvironments := [.int, .test, .acc]
  defaultEnvironment := .int
  tags := []
  default_allowed := by decide

/-- `DO UPDATE SET` of the replicated columns. -/
def replicate (u : TenantUpdate) (now createdAt : Timestamp) (t : TenantRow) : TenantRow :=
  TenantRow.touch now
    { t with
      slug := u.slug
      displayName := u.displayName
      tier := u.tier
      rootKeyId := u.rootKeyId
      updatedAt := createdAt
      deletedAt := u.deletedAt }

theorem id_replicate (u : TenantUpdate) (now createdAt : Timestamp) (t : TenantRow) :
    (u.replicate now createdAt t).id = t.id := rfl

end TenantUpdate

namespace RegionDb

/-- `tenants_tier_check`. -/
def checkTier (tier : String) : Except ApplyError TenantTier :=
  match TenantTier.ofText tier with
  | some t => .ok t
  | none => .error (.database (.checkViolation "tenants" "tenants_tier_check"))

/-- `tenants_slug_key`: no other tenant has the slug. -/
def checkSlug (r : RegionDb) (id : Uuid) (slug : String) : Except ApplyError Unit :=
  if r.tenants.rows.any fun t => t.slug == slug && t.id != id then
    .error (.database (.uniqueViolation "tenants_slug_key"))
  else .ok ()

def insertTenant (r : RegionDb) (t : TenantRow) : Except ApplyError RegionDb :=
  match r.tenants.insert? t with
  | none => .error (.database (.uniqueViolation "tenants_pkey"))
  | some tenants => .ok { r with tenants := tenants }

def applyTenantUpdate (now : Timestamp) (r : RegionDb) (e : ReplicationEvent) :
    Except ApplyError RegionDb := do
  let tenantId ← e.field "id" " in tenant_update payload"
  let slug ← e.field "slug" " in tenant_update payload"
  let displayName ← e.field "display_name" " in tenant_update payload"
  let tier ← e.field "tier" " in tenant_update payload"
  let rootKeyId ← e.field "root_key_id" " in tenant_update payload"
  let tid ← castUuid tenantId
  match r.tenants.get? tid with
  | none =>
    let tier ← checkTier tier
    r.checkSlug tid slug
    let update : TenantUpdate := ⟨slug, displayName, tier, rootKeyId, e.payload.deletedAt⟩
    r.insertTenant (update.newRow now tid e.createdAt)
  | some t =>
    if t.updatedAt > e.createdAt then return r
    else
      let tier ← checkTier tier
      r.checkSlug tid slug
      let update : TenantUpdate := ⟨slug, displayName, tier, rootKeyId, e.payload.deletedAt⟩
      return { r with
        tenants := r.tenants.update (fun t => t.id == tid) (update.replicate now e.createdAt)
          (update.id_replicate now e.createdAt) }

/-- The text that the codec adds to its error is not modelled. -/
def keyHash (text : String) : Except ApplyError (List UInt8) :=
  match Base64.decode text with
  | some bytes => .ok bytes
  | none => .error (.payload "key_hash_b64 is not valid base64")

/-- A text bound for a column `VARCHAR(n)`. -/
def bindVarchar (limit : Nat) (text : String) : Except ApplyError String :=
  (varchar limit text).mapError .database

def applyApiKeyUpsert (now : Timestamp) (r : RegionDb) (e : ReplicationEvent) :
    Except ApplyError RegionDb := do
  let id ← e.field "id" " in api_key_upsert payload"
  let tenantId ← e.field "tenant_id" " in api_key_upsert payload"
  let name ← e.field "name" " in api_key_upsert payload"
  let keyPrefix ← e.field "key_prefix" " in api_key_upsert payload"
  let createdBy ← e.field "created_by" " in api_key_upsert payload"
  let hashB64 ← e.field "key_hash_b64" " in api_key_upsert payload"
  let hash ← keyHash hashB64
  let id ← castUuid id
  let tid ← castUuid tenantId
  let name ← bindVarchar 255 name
  let keyPrefix ← bindVarchar 12 keyPrefix
  let createdBy ← bindVarchar 255 createdBy
  let row : ApiKeyRow :=
    { id := id, tenantId := tid, name := name, keyHash := hash, keyPrefix := keyPrefix,
      pathPrefixes := e.payload.pathPrefixes, policies := e.payload.policies,
      createdBy := createdBy, createdAt := now, expiresAt := e.payload.expiresAt,
      revokedAt := e.payload.revokedAt,
      -- `as i32`
      rateLimitPerMinute := asI32 (asU32 (e.payload.rateLimitPerMinute.getD 60)) }
  let apiKeys ← (upsertApiKey r.db.tenants r.apiKeys row).mapError .database
  return { r with apiKeys := apiKeys }

/-- A failed event leaves the tables as they were: the caller keeps `r`. -/
def applyEvent (strategy localRegion : String) (now : Timestamp) (freshId : Uuid)
    (elsewhere : Except ApplyError Unit) (r : RegionDb) (e : ReplicationEvent) :
    Except ApplyError RegionDb :=
  match e.eventType with
  | .secretUpsert => r.applySecretUpsert strategy localRegion now freshId e
  | .secretDelete => r.applySecretDelete now e
  | .secretDestroy => r.applySecretDestroy now e
  | .policyUpdate => r.applyPolicyUpdate now e
  | .tenantUpdate => r.applyTenantUpdate now e
  | .apiKeyUpsert => r.applyApiKeyUpsert now e
  | .dekUpsert | .regionPromote => elsewhere.map fun _ => r
  | .keyRotate | .regionFailover | .other _ => .ok r

end RegionDb

/-- What the database has for one call of `apply_event`: its clock, the id it
draws, the answers of the other tables, and a failure of the transaction. -/
structure Draw where
  now : Timestamp
  freshId : Uuid := .nil
  elsewhere : Except ApplyError Unit := .ok ()
  fault : Option ApplyError := none

structure Application extends Draw where
  event : ReplicationEvent

def Application.result (strategy localRegion : String) (a : Application) (r : RegionDb) :
    Except ApplyError RegionDb :=
  match a.fault with
  | some e => .error e
  | none => r.applyEvent strategy localRegion a.now a.freshId a.elsewhere a.event

theorem Application.applyEvent_of_result {strategy localRegion : String} {a : Application}
    {r r' : RegionDb} (h : a.result strategy localRegion r = .ok r') :
    r.applyEvent strategy localRegion a.now a.freshId a.elsewhere a.event = .ok r' := by
  unfold Application.result at h
  split at h
  · cases h
  · exact h

end WslVault.ReplicationAgent
