import WslVault.ReplicationAgent.Outbox

/-!
# The API keys of a writing region

The table `shared.api_keys` with the trigger that records its changes for the peers
(`017_api_key_replication.sql`). The trigger looks at some of the columns only, and so does
the snapshot that it records.
-/

namespace WslVault.ReplicationAgent

open Core Base Storage

/-- A region's API keys and its outbox, oldest event first. -/
structure KeySource where
  tenants : TenantTable
  keys : ApiKeyTable
  outbox : List ReplicationEvent

/-- `to_jsonb` of a time, as the applier reads it: only the years from 1 to 9999 have an
RFC 3339 text. -/
def jsonTime (t : Timestamp) : Option Timestamp :=
  if seconds (-62135596800) ≤ t ∧ t < seconds 253402300800 then some t else none

def apiKeyUpsertEvent (region : String) (eventId : Uuid) (createdAt : Timestamp)
    (row : ApiKeyRow) : ReplicationEvent where
  id := eventId
  eventType := .apiKeyUpsert
  sourceRegion := region
  payload :=
    { texts := [("id", row.id.toString), ("tenant_id", row.tenantId.toString), ("name", row.name),
        ("key_hash_b64", Base64.encodeLines row.keyHash), ("key_prefix", row.keyPrefix),
        ("created_by", row.createdBy)]
      pathPrefixes := row.pathPrefixes
      policies := row.policies
      expiresAt := row.expiresAt.bind jsonTime
      revokedAt := row.revokedAt.bind jsonTime
      rateLimitPerMinute := some row.rateLimitPerMinute }
  vectorClock := []
  createdAt := createdAt

/-- What the trigger takes for no change. -/
def unchanged (old new : ApiKeyRow) : Bool :=
  new.keyHash == old.keyHash && new.policies == old.policies &&
    new.pathPrefixes == old.pathPrefixes && new.expiresAt == old.expiresAt &&
    new.revokedAt == old.revokedAt && new.name == old.name

inductive KeyStatement where
  | insert (row : ApiKeyRow)
  /-- `UPDATE … WHERE id = …`; a row that does not meet the rest of the condition has
  no change. -/
  | update (id : Uuid) (change : ApiKeyRow → Option ApiKeyRow)

/-- A statement, with the id and the time of the event that it may record. -/
structure KeyChange where
  statement : KeyStatement
  eventId : Uuid
  createdAt : Timestamp

namespace KeySource

def written (change : ApiKeyRow → Option ApiKeyRow) (k : ApiKeyRow) : ApiKeyRow :=
  { (change k).getD k with id := k.id }

theorem id_written (change : ApiKeyRow → Option ApiKeyRow) (k : ApiKeyRow) :
    (written change k).id = k.id := rfl

def checkUpdate (keys : ApiKeyTable) (row : ApiKeyRow) : Except SqlError Unit := do
  checkApiKey keys row
  refuseIf (row.isSuperuser && !row.mfaRequired)
    (.checkViolation "api_keys" "superuser_requires_mfa")

def step (region : String) (s : KeySource) (c : KeyChange) : KeySource × Except SqlError Unit :=
  match c.statement with
  | .insert row =>
    match ApiKeyStore.storedRow row, ApiKeyStore.insertRow s.tenants s.keys row with
    | .ok stored, .ok keys =>
      (⟨s.tenants, keys, s.outbox ++ [apiKeyUpsertEvent region c.eventId c.createdAt stored]⟩,
        .ok ())
    | _, .error e => (s, .error e)
    | .error e, _ => (s, .error e)
  | .update id change =>
    match s.keys.get? id with
    | none => (s, .ok ())
    | some old =>
      let new := written change old
      match checkUpdate s.keys new with
      | .error e => (s, .error e)
      | .ok _ =>
        let events := if unchanged old new then []
          else [apiKeyUpsertEvent region c.eventId c.createdAt new]
        (⟨s.tenants, s.keys.update (fun k => k.id == id) (written change) (id_written change),
          s.outbox ++ events⟩, .ok ())

end KeySource

end WslVault.ReplicationAgent
