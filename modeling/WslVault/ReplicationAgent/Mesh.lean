import WslVault.ReplicationAgent.Applier
import WslVault.SecretEngine.PgStore

/-!
# Regions that write and replicate

The secret engine of every region records an event for each write it has committed
(`emit_replication_event`, `services/secret-engine/src/pg_store.rs`), and the agents of the
other regions apply it, in any order and at any time. The event is recorded by a statement
of its own, so its `created_at` is not the time of the write.
-/

namespace WslVault.ReplicationAgent

open Core Storage SecretEngine

def secretUpsertEvent (region : String) (eventId : Uuid) (createdAt : Timestamp)
    (r : PutRequest) : ReplicationEvent where
  id := eventId
  eventType := .secretUpsert
  sourceRegion := region
  payload :=
    { texts := [("tenant_id", r.tenantId), ("path", r.path), ("ciphertext", r.ciphertext),
        ("dek_id", r.dekId)] }
  vectorClock := []
  createdAt := createdAt

inductive Action where
  /-- A write through the region's store, and the event recorded for it. -/
  | write (region : String) (freshId : Uuid) (r : PutRequest) (eventId : Uuid)
      (createdAt : Timestamp)
  | apply (region : String) (a : Application)

/-- The regions by name, each with the events it has recorded or applied. -/
structure Mesh where
  region : String → RegionDb
  seen : String → List ReplicationEvent

namespace Mesh

def record (m : Mesh) (name : String) (db : RegionDb) (e : ReplicationEvent) : Mesh where
  region := Function.update m.region name db
  seen := Function.update m.seen name (m.seen name ++ [e])

def step (strategy : String) (m : Mesh) : Action → Mesh × Bool
  | .write name freshId r eventId createdAt =>
    match PgSecretBackend.put (m.region name).db freshId r with
    | (db, .ok _) =>
      (m.record name ((m.region name).withDb db) (secretUpsertEvent name eventId createdAt r), true)
    | (_, .error _) => (m, false)
  | .apply name a =>
    match a.result strategy name (m.region name) with
    | .ok db => (m.record name db a.event, true)
    | .error _ => (m, false)

end Mesh

end WslVault.ReplicationAgent
