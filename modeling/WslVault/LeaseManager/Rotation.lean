import WslVault.Storage.SecretLifecycle

/-!
# The rotation tasks of the lease manager

The two background loops of `services/lease-manager/src/rotation.rs`. The rotation sweep
reads the secrets due for rotation, posts a notification for each that has a webhook, and
marks the secret pending when it was delivered. The version cleanup revokes the old versions
of confirmed rotations past their grace period.

A sweep is its query, and then one event for each due secret, with requests in between.
Whether a replica is the leader only decides whether a tick starts a sweep at all.
-/

namespace WslVault.LeaseManager

open Core Storage

structure DueSecret where
  id : Uuid
  path : String
  tenantId : Uuid
  secretType : SecretType
  webhookUrl : Option String
  rotationIntervalSeconds : Option Int
  deriving DecidableEq

def DueSecret.ofRow (s : SecretRow) : DueSecret where
  id := s.id
  path := s.path
  tenantId := s.tenantId
  secretType := s.secretType
  webhookUrl := s.webhookUrl
  rotationIntervalSeconds := s.rotationIntervalSeconds

def dueSecrets (db : Db) (now : Timestamp) : List DueSecret :=
  (db.secrets.select fun s =>
    s.secretType == .rotationRequired && s.nextRotationAt.any (· ≤ now) &&
      s.rotationStatus == .none).map .ofRow

/-- The outcome of one POST: the status of the response, or no response. -/
inductive Attempt where
  | response (status : Nat)
  | failed
  deriving DecidableEq

def Attempt.isSuccess : Attempt → Bool
  | response status => 200 ≤ status && status < 300
  | failed => false

variable (maxRetries : Nat)

/-- At most `max_retries` attempts, and at least one, until one succeeds. -/
def dispatchWebhookWithRetry (attempts : List Attempt) : Bool :=
  (attempts.take (max maxRetries 1)).any (·.isSuccess)

/-- The sweep's work on one due secret. `markFails` says that the transaction
of `mark_rotation_pending` failed; it runs at `now`. -/
def notifySecret (db : Db) (now : Timestamp) (secret : DueSecret)
    (attempts : List Attempt) (markFails : Bool) : Db :=
  match secret.webhookUrl with
  | some _ =>
    if dispatchWebhookWithRetry maxRetries attempts && !markFails then
      db.markPending now secret.id
    else db
  | none => db

def cleanupBatch : Nat := 100

def runVersionCleanup (db : Db) (now : Timestamp) (picked : List Uuid) : Db :=
  (db.revokeDeprecatedVersions now cleanupBatch picked).1

/-- The database, and the due secrets the running sweep has still to visit. -/
structure System where
  db : Db
  due : List DueSecret

def System.start (tenants : List Uuid) : System := ⟨.empty tenants, []⟩

inductive Event where
  /-- A transaction of another service. -/
  | request (op : Op)
  /-- A tick of the sweep: the query of `run_rotation_sweep`. -/
  | sweep (now : Timestamp)
  /-- The sweep visits its next secret. -/
  | notify (now : Timestamp) (attempts : List Attempt) (markFails : Bool)
  | cleanup (now : Timestamp) (picked : List Uuid)

/-- A sweep starts only when the last one is through. -/
def System.step (s : System) : Event → System × Option SqlError
  | .request op =>
    let out := s.db.step op
    ({ s with db := out.1 }, out.2)
  | .sweep now => (if s.due.isEmpty then { s with due := dueSecrets s.db now } else s, none)
  | .notify now attempts markFails =>
    match s.due with
    | [] => (s, none)
    | secret :: rest =>
      (⟨notifySecret maxRetries s.db now secret attempts markFails, rest⟩, none)
  | .cleanup now picked => ({ s with db := runVersionCleanup s.db now picked }, none)

end WslVault.LeaseManager
