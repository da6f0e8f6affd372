import WslVault.Storage.LeaseStore
import WslVault.Storage.RevocationStore

/-!
# The lease stores

`LeaseRecord` and the in-memory store of `services/lease-manager/src/store.rs`, and the
backend of `services/lease-manager/src/pg_store.rs`. A text that describes a target stands
for what it parses to. The renewal of the database takes a query, a computation and an
update, which are apart here.
-/

namespace WslVault.LeaseManager

open Core Base Storage

inductive LeaseState where
  | active
  | expired
  | revoked
  deriving DecidableEq, Repr

/-- A text for a lease's target: it parses as JSON to a target, or not, with the
parser's complaint. -/
inductive TargetData where
  | json (target : LeaseTarget)
  | other (text complaint : String)
  deriving DecidableEq, Repr

structure LeaseRecord where
  id : Uuid
  (tenantId targetType : String)
  targetData : TargetData
  state : LeaseState
  (ttlSeconds maxTtlSeconds : Int)
  renewable : Bool
  (issuedAt expiresAt : Timestamp)
  revokedAt : Option Timestamp
  deriving DecidableEq

/-- Why a call on a store gave nothing: its error text, or that it panicked. -/
inductive StoreError where
  | message (text : String)
  | panicked
  deriving DecidableEq, Repr

/-- `t + Duration::seconds(n)`, which panics beyond the range of the library. -/
def later (t : Timestamp) (n : Int) : Option Timestamp :=
  if -9223372036854775 ≤ n ∧ n ≤ 9223372036854775 ∧
      (fromTimestamp ((t + seconds n) / 1000000)).isSome = true then
    some (t + seconds n)
  else none

namespace LeaseRecord

variable (r : LeaseRecord)

/-- Digest, principal and end of the token whose lease this is. -/
def tokenRevocation : Option (String × String × Int) :=
  if r.targetType ≠ "token" then none
  else
    match r.targetData with
    | .json (.token tokenId principalId) => some (tokenId, principalId, r.expiresAt / 1000000)
    | _ => none

/-- The checks of a renewal, and the end that it gives: never beyond the longest lifetime. -/
def renewal (now : Timestamp) (incrementSecs : Int) : Except StoreError Timestamp := do
  refuseIf (r.state ≠ .active) (.message ("lease " ++ r.id.toString ++ " is not active"))
  refuseIf (r.renewable = false) (.message ("lease " ++ r.id.toString ++ " is not renewable"))
  let maxExpiresAt ← okOr (later r.issuedAt r.maxTtlSeconds) .panicked
  let proposedExpiresAt ← okOr (later now incrementSecs) .panicked
  return min proposedExpiresAt maxExpiresAt

def renewed (expiresAt : Timestamp) (incrementSecs : Int) : LeaseRecord :=
  { r with expiresAt := expiresAt, ttlSeconds := incrementSecs }

def revoked (now : Timestamp) : LeaseRecord :=
  { r with state := .revoked, revokedAt := some now }

def expired : LeaseRecord := { r with state := .expired }

def toCoreLease : Except String Lease :=
  match Uuid.parseStr r.tenantId with
  | none => .error ("invalid tenant_id UUID '" ++ r.tenantId ++ "'")
  | some tenantId =>
    .ok
      { id := r.id
        tenantId := tenantId
        -- a text that is no target is kept as the digest of a token
        target :=
          match r.targetData with
          | .json target => target
          | .other text _ => .token text ""
        state :=
          match r.state with
          | .active => .active
          | .expired => .expired
          | .revoked => .revoked
        ttlSeconds := r.ttlSeconds.toNat
        maxTtlSeconds := r.maxTtlSeconds.toNat
        renewable := r.renewable
        issuedAt := r.issuedAt
        expiresAt := r.expiresAt
        revokedAt := r.revokedAt }

def ofCoreLease (l : Lease) : LeaseRecord where
  id := l.id
  tenantId := l.tenantId.toString
  targetType := l.target.typeStr
  targetData := .json l.target
  state :=
    match l.state with
    | .active | .renewing => .active
    | .expired => .expired
    | .revoked => .revoked
  ttlSeconds := l.ttlSeconds
  maxTtlSeconds := l.maxTtlSeconds
  renewable := l.renewable
  issuedAt := l.issuedAt
  expiresAt := l.expiresAt
  revokedAt := l.revokedAt

end LeaseRecord

def notFound (leaseId : Uuid) : StoreError := .message ("lease not found: " ++ leaseId.toString)

def storeError (e : VaultError) : StoreError := .message e.display

abbrev InMemoryLeaseStore := Table LeaseRecord LeaseRecord.id

namespace InMemoryLeaseStore

variable (leases : InMemoryLeaseStore) (leaseId : Uuid)

/-- `HashMap::insert`: a record of that id is replaced. -/
def insertLease (record : LeaseRecord) : InMemoryLeaseStore :=
  match leases.insert? record with
  | some leases' => leases'
  | none =>
    leases.update (fun r => r.id == record.id) (fun r => { record with id := r.id }) fun _ => rfl

def setLease (set : LeaseRecord → LeaseRecord)
    (hset : ∀ r, (set r).id = r.id) : InMemoryLeaseStore :=
  leases.update (fun r => r.id == leaseId) set hset

def renewLease (now : Timestamp) (leaseId : Uuid)
    (incrementSecs : Int) : Except StoreError (InMemoryLeaseStore × LeaseRecord) := do
  let record ← okOr (leases.get? leaseId) (notFound leaseId)
  let newExpiresAt ← record.renewal now incrementSecs
  return (setLease leases leaseId (fun r => r.renewed newExpiresAt incrementSecs) fun _ => rfl,
    record.renewed newExpiresAt incrementSecs)

def revokeLease (now : Timestamp) (leaseId : Uuid) : Except StoreError InMemoryLeaseStore := do
  let _ ← okOr (leases.get? leaseId) (notFound leaseId)
  return setLease leases leaseId (fun r => r.revoked now) fun _ => rfl

def listStaleActiveLeases (now : Timestamp) : List LeaseRecord :=
  leases.select fun r => r.state == .active && decide (r.expiresAt ≤ now)

def markExpired : Except StoreError InMemoryLeaseStore := do
  let record ← okOr (leases.get? leaseId) (notFound leaseId)
  if record.state = .active then
    return setLease leases leaseId (fun r => r.expired) fun _ => rfl
  else return leases

end InMemoryLeaseStore

namespace PgLeaseBackend

def insertLease (tenants : List Uuid) (rows : LeaseTable) (fault : Option String)
    (record : LeaseRecord) : Except StoreError LeaseTable := do
  let lease ← record.toCoreLease.mapError .message
  (LeaseStore.createLease tenants rows fault lease).mapError storeError

variable (rows : LeaseTable) (fault : Option String) (leaseId : Uuid)

/-- Every error reads as no lease. -/
def getLease : Option LeaseRecord :=
  ((LeaseStore.getLease rows fault leaseId).toOption).map .ofCoreLease

/-- The first part of `renew_lease`: the end that is then to be written. -/
def computeRenewal (now : Timestamp) (leaseId : Uuid)
    (incrementSecs : Int) : Except StoreError Timestamp := do
  let record ← okOr (getLease rows fault leaseId) (notFound leaseId)
  record.renewal now incrementSecs

def writeRenewal (newExpiresAt : Timestamp) (incrementSecs : Int) : Except StoreError LeaseTable :=
  (LeaseStore.renewLease rows fault leaseId newExpiresAt incrementSecs.toNat).mapError storeError

def refetch : Except StoreError LeaseRecord :=
  okOr (getLease rows fault leaseId)
    (.message ("lease " ++ leaseId.toString ++ " vanished after renewal"))

def revokeLease (now : Timestamp) (leaseId : Uuid) : Except StoreError LeaseTable :=
  (LeaseStore.revokeLease rows fault now leaseId).mapError storeError

def batchSize : Nat := 500

def listStaleActiveLeases (now : Timestamp) : List LeaseRecord :=
  (((LeaseStore.listStaleLeases rows fault now batchSize).toOption).getD []).map .ofCoreLease

def markExpired : Except StoreError LeaseTable :=
  (LeaseStore.markLeaseExpired rows fault leaseId).mapError storeError

end PgLeaseBackend

/-- `LeaseStoreBackend`; the database has the ids of the tenants too. -/
inductive Backend where
  | memory (leases : InMemoryLeaseStore)
  | database (tenants : List Uuid) (rows : LeaseTable)

namespace Backend

variable (b : Backend) (fault : Option String) (leaseId : Uuid)

def insertLease (record : LeaseRecord) : Except StoreError Backend :=
  match b with
  | memory leases => .ok (memory (leases.insertLease record))
  | database tenants rows =>
    (PgLeaseBackend.insertLease tenants rows fault record).map (database tenants)

def getLease : Option LeaseRecord :=
  match b with
  | memory leases => leases.get? leaseId
  | database _ rows => PgLeaseBackend.getLease rows fault leaseId

def revokeLease (now : Timestamp) (leaseId : Uuid) : Except StoreError Backend :=
  match b with
  | memory leases => (leases.revokeLease now leaseId).map memory
  | database tenants rows =>
    (PgLeaseBackend.revokeLease rows fault now leaseId).map (database tenants)

def listStaleActiveLeases (now : Timestamp) : List LeaseRecord :=
  match b with
  | memory leases => leases.listStaleActiveLeases now
  | database _ rows => PgLeaseBackend.listStaleActiveLeases rows fault now

def markExpired : Except StoreError Backend :=
  match b with
  | memory leases => (leases.markExpired leaseId).map memory
  | database tenants rows => (PgLeaseBackend.markExpired rows fault leaseId).map (database tenants)

end Backend

end WslVault.LeaseManager
