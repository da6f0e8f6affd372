import WslVault.AuditService.Append
import WslVault.AuditService.Integrity

/-!
# The audit service's store

`services/audit-service/src/pg_store.rs` over the table of `Storage.AuditStore`. A record is
signed with the key of the tenant as the record spells it, and verified with the key of the
tenant as the query spells it.
-/

namespace WslVault.AuditService

open Core Storage

def recordToStored (record : AuditRecord) : StoredAuditEvent := record.toStoredAuditEvent

def storedToRecord (event : StoredAuditEvent) : AuditRecord := { event with verified := none }

namespace PgAuditBackend

variable (signer : AuditSigner) (rows : List AuditRow)

/-- `insert_record`: what it appends. The service only tells whether that failed. -/
def insertRecord (record : AuditRecord) : Append where
  event := recordToStored record
  sign := signer.signEventChained record (signer.keyFor record.tenantId)

def queried (tenantId : String) (failure : Option String) : Except VaultError Uuid :=
  match Uuid.parseStr tenantId, failure with
  | none, _ => .error (.validationError "tenant_id" "invalid UUID")
  | some _, some reason => .error (.database reason)
  | some uuid, none => .ok uuid

def chainBreaks (tenantId : String) (failure : Option String) :
    Except String (List (Int × String)) :=
  match queried tenantId (failure.map ("chain verification query failed: " ++ ·)) with
  | .error e => .error e.display
  | .ok uuid => .ok (AuditStore.auditChainBreaks rows uuid)

structure Query where
  startTime : Option Nanos := none
  endTime : Option Nanos := none
  actionFilter : Option String := none
  principalFilter : Option String := none
  limit : Nat
  offset : Nat := 0

/-- The page that is asked for; the storage layer's `limit` and `offset` are `i32`. -/
def Query.page (query : Query) (rows : List AuditRow) (tenantId : Uuid) : List AuditRow :=
  AuditStore.page rows
    ⟨tenantId, query.startTime, query.endTime, query.actionFilter, query.principalFilter⟩
    (min query.limit (2 ^ 31 - 1)) (min query.offset (2 ^ 31 - 1))

def checked (key : Bytes) (record : AuditRecord) : AuditRecord :=
  { record with verified := some (signer.verifySignature record key record.signature) }

def queryEvents (tenantId : String) (query : Query)
    (failure : Option String) : Except String (List AuditRecord × Nat) :=
  match queried tenantId failure with
  | .error e => .error e.display
  | .ok uuid =>
    let (events, total) := AuditStore.queryEvents rows
      ⟨uuid, query.startTime, query.endTime, query.actionFilter, query.principalFilter⟩
      (min query.limit (2 ^ 31 - 1)) (min query.offset (2 ^ 31 - 1))
    .ok (events.map fun event => checked signer (signer.keyFor tenantId) (storedToRecord event),
      total)

end PgAuditBackend

end WslVault.AuditService
