import WslVault.Base.Tasks
import WslVault.Core.Crypto
import WslVault.SecretEngine.PgStore
import WslVault.Storage.QuotaStore

/-!
# Writes under a quota

`PgSecretBackend::put` (`services/secret-engine/src/pg_store.rs`) one statement at a time,
on a database whose transactions read what is committed. The quota check takes no lock. The
upsert of a secret's row locks its path until the transaction ends; a second upsert of the
path, or of a new row with the same id, waits. For a new row the trigger then locks the
tenant's quota row in the same way. Since the rows that a transaction has written are locked,
its writes are computed when it commits. Any statement may fail, and so may the commit.
-/

namespace WslVault.SecretEngine.Quota

open Core Base Storage

structure Database where
  tables : Db
  quotas : QuotaTable

/-- A write that a mount has prepared: the ciphertext is the envelope of the plaintext. -/
structure SealedPut (aes : Aes256Gcm) where
  plaintext : Bytes
  put : PutRequest
  /-- The id `gen_random_uuid` draws for a new path. -/
  freshId : Uuid
  encrypted : ∃ nonce dek aad, encryptWithDek aes nonce dek plaintext aad = .ok put.ciphertext

inductive Phase where
  | start
  /-- The transaction of the tenant is open. -/
  | opened (tid : Uuid)
  /-- The quota check has passed. -/
  | checked (tid : Uuid)
  /-- The secret's row is inserted, or an existing one is updated. -/
  | upserted (tid : Uuid) (isNew : Bool)
  /-- The stored function is done, and the labels are set. -/
  | written (tid : Uuid) (isNew : Bool)

namespace Phase

/-- The tenant of a put that has passed its check. -/
def admitted : Phase → Option Uuid
  | checked tid => some tid
  | upserted tid _ => some tid
  | written tid _ => some tid
  | _ => none

/-- The tenant whose secrets a put has locked one of, and whether that is a new one. -/
def holds : Phase → Option (Uuid × Bool)
  | upserted tid isNew => some (tid, isNew)
  | written tid isNew => some (tid, isNew)
  | _ => none

def counts : Phase → Option Uuid
  | written tid true => some tid
  | _ => none

end Phase

/-- The size the quota check is given: the length of the ciphertext's text. -/
def checkedSize (r : PutRequest) : Nat := (asBytes r.ciphertext).length

def isNewPath (db : Database) (tid : Uuid) (path : String) : Bool :=
  (db.tables.secrets.get? (tid, path)).isNone

/-- `AFTER INSERT OR DELETE`: the upsert of an existing row does not count. -/
def triggerOp (isNew : Bool) : TriggerOp := if isNew then .insert else .update

def writes (db : Database) (freshId : Uuid) (tid : Uuid) (r : PutRequest) :
    Except VaultError (Database × (String × UInt32)) := do
  let request := PgSecretBackend.upsertRequest tid r
  let _ ← (db.tables.upsertSecretRow r.now freshId request.params).mapError request.error
  let quotas ← (updateSecretCount db.quotas (triggerOp (isNewPath db tid r.path)) tid).mapError
    request.error
  let (tables, secretId, version) ←
    SecretStore.upsertSecretVersion db.tables r.now freshId request
  return (⟨tables, quotas⟩, (secretId.toString, version))

section Advance

variable {aes : Aes256Gcm}

abbrev PutSessions (aes : Aes256Gcm) := Sessions Database (SealedPut aes) Phase

abbrev PutEvent (aes : Aes256Gcm) := SessionEvent (SealedPut aes) (Option String)

abbrev Statement := Progress Database Phase (Except VaultError (String × UInt32))

def blocked (others : List (SealedPut aes × Phase)) (w : SealedPut aes) (tid : Uuid)
    (isNew : Bool) : Bool :=
  others.any fun x =>
    match x.2.holds with
    | some (tid', isNew') =>
      (tid' == tid && x.1.put.path == w.put.path) ||
        (isNew && isNew' && x.1.freshId == w.freshId)
    | none => false

def refuse (db : Database) (e : VaultError) : Statement := .finish db (.error e)

def openScope (db : Database) (fault : Option String) (w : SealedPut aes) : Statement :=
  match PgSecretBackend.parseTenantId w.put.tenantId, fault with
  | .error e, _ => refuse db e
  | .ok _, some reason => refuse db (.database reason)
  | .ok tid, none => .goOn (.opened tid)

def verdict (db : Database) (fault : Option String) (tid : Uuid) (r : PutRequest) :
    Except QuotaStoreError Unit :=
  match fault with
  | some reason => .error (.database reason)
  | none => QuotaStore.checkWriteQuota db.quotas tid (checkedSize r)

/-- Every error of the check is reported as an exceeded quota. -/
def check (db : Database) (fault : Option String) (w : SealedPut aes) (tid : Uuid) : Statement :=
  match verdict db fault tid w.put with
  | .error e => refuse db (.quotaExceeded e.display)
  | .ok () => .goOn (.checked tid)

def upsertRow (db : Database) (others : List (SealedPut aes × Phase)) (fault : Option String)
    (w : SealedPut aes) (tid : Uuid) : Statement :=
  let request := PgSecretBackend.upsertRequest tid w.put
  let isNew := isNewPath db tid w.put.path
  match fault with
  | some reason => refuse db (.database reason)
  | none =>
    if blocked others w tid isNew then .wait
    else
      match db.tables.upsertSecretRow w.put.now w.freshId request.params with
      | .error e => refuse db (request.error e)
      | .ok _ => .goOn (.upserted tid isNew)

def finishWrite (db : Database) (others : List (SealedPut aes × Phase)) (fault : Option String)
    (w : SealedPut aes) (tid : Uuid) (isNew : Bool) : Statement :=
  match fault with
  | some reason => refuse db (.database reason)
  | none =>
    if isNew && others.any (fun x => x.2.counts == some tid) then .wait
    else
      match writes db w.freshId tid w.put with
      | .error e => refuse db e
      | .ok _ => .goOn (.written tid isNew)

def commit (db : Database) (fault : Option String) (w : SealedPut aes) (tid : Uuid) : Statement :=
  match fault, writes db w.freshId tid w.put with
  | some reason, _ => refuse db (.database ("commit failed: " ++ reason))
  | none, .error e => refuse db e
  | none, .ok (db', reply) => .finish db' (.ok reply)

/-- The next statement of a put, which fails for the given reason if there is one. -/
def advance (db : Database) (others : List (SealedPut aes × Phase)) (fault : Option String)
    (w : SealedPut aes) : Phase → Statement
  | .start => openScope db fault w
  | .opened tid => check db fault w tid
  | .checked tid => upsertRow db others fault w tid
  | .upserted tid isNew => finishWrite db others fault w tid isNew
  | .written tid _ => commit db fault w tid

def step : PutSessions aes → PutEvent aes →
    PutSessions aes × Option (SealedPut aes × Except VaultError (String × UInt32)) :=
  Sessions.step .start advance

end Advance

end WslVault.SecretEngine.Quota
