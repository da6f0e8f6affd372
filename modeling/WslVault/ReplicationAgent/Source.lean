import WslVault.ReplicationAgent.Mesh

/-!
# The outbox of a writing region

The calls that change secrets through `PgSecretBackend`
(`services/secret-engine/src/pg_store.rs`), with what each records in
`system.replication_events` for the peers. Only a write records an event, after
its commit and best-effort: the write stands when recording it fails.
-/

namespace WslVault.ReplicationAgent

open Core Storage SecretEngine

structure Source where
  db : PgSecretBackend
  outbox : List ReplicationEvent

inductive SecretCall where
  /-- `recorded` is the id and the time of the event, `none` when recording it
  fails. -/
  | put (freshId : Uuid) (r : PutRequest) (recorded : Option (Uuid × Timestamp))
  | softDelete (now : Timestamp) (tenantId path : String) (versions : List UInt32)
  | destroy (now : Timestamp) (tenantId path : String) (versions : List UInt32)
  | initiateRotation (now : Timestamp) (freshId : Uuid)
      (tenantId path ciphertext dekId initiatedBy : String) (webhookUrl : Option String)
      (timeoutSecs : Option Int)
  | confirmRotation (now : Timestamp) (tenantId rotationId confirmedBy : String)
  | rollback (now : Timestamp) (tenantId path : String) (targetVersion : UInt32)
      (rolledBackBy : String)

namespace Source

def quiet {α : Type} (s : Source) (out : PgSecretBackend × Except VaultError α) :
    Source × Except VaultError Unit :=
  ({ s with db := out.1 }, out.2.map fun _ => ())

/-- `region` is the `REGION_ID` of the secret engine. -/
def step (region : String) (s : Source) : SecretCall → Source × Except VaultError Unit
  | .put freshId r recorded =>
    match s.db.put freshId r with
    | (db, .error e) => (⟨db, s.outbox⟩, .error e)
    | (db, .ok _) =>
      let events := recorded.map fun (eventId, createdAt) =>
        secretUpsertEvent region eventId createdAt r
      (⟨db, s.outbox ++ events.toList⟩, .ok ())
  | .softDelete now tenantId path versions => s.quiet (s.db.softDelete now tenantId path versions)
  | .destroy now tenantId path versions => s.quiet (s.db.destroy now tenantId path versions)
  | .initiateRotation now freshId tenantId path ciphertext dekId initiatedBy webhookUrl
      timeoutSecs =>
    s.quiet (s.db.initiateRotation now freshId tenantId path ciphertext dekId initiatedBy
      webhookUrl timeoutSecs)
  | .confirmRotation now tenantId rotationId confirmedBy =>
    s.quiet (s.db.confirmRotation now tenantId rotationId confirmedBy)
  | .rollback now tenantId path targetVersion rolledBackBy =>
    s.quiet (s.db.rollback now tenantId path targetVersion rolledBackBy)

end Source

end WslVault.ReplicationAgent
