import WslVault.Base.Tasks
import WslVault.Storage.AuditStore

/-!
# Appending to the audit chain

`insert_event_chained` of `crates/wslvault-storage/src/audit_store.rs` one statement at a
time, for any number of writers on one database. The advisory lock is for the hash of the
tenant's id and is held until the transaction ends. Each statement may fail, and the
transaction then leaves nothing, but for a commit whose answer was lost.
-/

namespace WslVault.AuditService

open Core Base Storage

/-- An event to append, and how it is signed at a place of the chain. -/
structure Append where
  event : StoredAuditEvent
  sign : Int → String → String

/-- How a statement fares: why it fails, if it does, and then, if it is the commit, whether
it took effect. -/
structure Fate where
  failure : Option String := none
  took : Bool := false

inductive Phase where
  | start
  | begun (tenantId : Uuid)
  | locked (tenantId : Uuid)
  /-- The place in the chain is known. -/
  | linked (tenantId : Uuid) (seq : Int) (prevHash : String)
  /-- The row is inserted, and not committed. -/
  | inserted (row : AuditRow)

def Phase.lock : Phase → Option Uuid
  | start | begun _ => none
  | locked tenantId => some tenantId
  | linked tenantId _ _ => some tenantId
  | inserted row => some row.tenantId

abbrev AppendSessions := Sessions (List AuditRow) Append Phase

abbrev Event := SessionEvent Append Fate

abbrev Statement := Progress (List AuditRow) Phase (Except VaultError (Int × String))

section Advance

variable (pg : PgTypes) (hashtext : String → Int) (rows : List AuditRow)

def isLocked (others : List (Append × Phase)) (tenantId : Uuid) : Bool :=
  others.any fun x =>
    x.2.lock.any fun holder => hashtext holder.toString == hashtext tenantId.toString

def failed (reason : String) : Statement :=
  .finish rows (.error (.database reason))

def begin (rows : List AuditRow) (fate : Fate) (a : Append) : Statement :=
  match Uuid.parseStr a.event.tenantId with
  | none => .finish rows (.error (.validationError "tenant_id" "invalid UUID"))
  | some tenantId =>
    match fate.failure with
    | some reason => failed rows ("could not begin audit transaction: " ++ reason)
    | none => .goOn (.begun tenantId)

def lockChain (others : List (Append × Phase)) (fate : Fate) (tenantId : Uuid) : Statement :=
  match fate.failure with
  | some reason => failed rows ("could not lock the audit chain: " ++ reason)
  | none => if isLocked hashtext others tenantId then .wait else .goOn (.locked tenantId)

def readTip (fate : Fate) (tenantId : Uuid) : Statement :=
  match fate.failure with
  | some reason => failed rows ("could not read the audit chain tip: " ++ reason)
  | none =>
    let (prevSeq, prevHash) := (AuditStore.auditChainTip rows tenantId).getD (0, "")
    .goOn (.linked tenantId (prevSeq + 1) prevHash)

def insertRow (fate : Fate) (a : Append) (tenantId : Uuid)
    (seq : Int) (prevHash : String) : Statement :=
  match fate.failure,
    AuditStore.chainedRow pg tenantId a.event (a.sign seq prevHash) seq prevHash with
  | none, some row => .goOn (.inserted row)
  | some reason, _ => failed rows reason
  | none, none => failed rows "error returned from database: invalid input"

def commit (rows : List AuditRow) (fate : Fate) (row : AuditRow) : Statement :=
  match fate.failure with
  | some reason =>
    failed (if fate.took then rows ++ [row] else rows)
      ("could not commit the audit record: " ++ reason)
  | none => .finish (rows ++ [row]) (.ok (row.seq.getD 0, row.prevHash.getD ""))

def advance (others : List (Append × Phase)) (fate : Fate) (a : Append) : Phase → Statement
  | .start => begin rows fate a
  | .begun tenantId => lockChain hashtext rows others fate tenantId
  | .locked tenantId => readTip rows fate tenantId
  | .linked tenantId seq prevHash => insertRow pg rows fate a tenantId seq prevHash
  | .inserted row => commit rows fate row

def step : AppendSessions → Event →
    AppendSessions × Option (Append × Except VaultError (Int × String)) :=
  Sessions.step .start (advance pg hashtext)

end Advance

end WslVault.AuditService
