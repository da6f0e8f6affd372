import WslVault.Core.Error
import WslVault.Storage.SecretLifecycle

/-!
# Leases

The lease of `crates/wslvault-core/src/types/lease.rs`, the table `shared.leases`
(`001_schema.sql`), and the functions of `crates/wslvault-storage/src/lease_store.rs`,
each of one statement. The target is a `JSONB` column whose values are those that the
enumeration has; its type, a column of its own, is told from it.
-/

namespace WslVault.Storage

open Core Base

inductive LeaseTarget where
  | token (tokenId principalId : String)
  | dynamicSecret (path role : String)
  | serviceCredential (service accountId : String)
  deriving DecidableEq, Repr

namespace LeaseTarget

def typeStr : LeaseTarget → String
  | token _ _ => "token"
  | dynamicSecret _ _ => "dynamic_secret"
  | serviceCredential _ _ => "service_credential"

def storable : LeaseTarget → Bool
  | token a b | dynamicSecret a b | serviceCredential a b =>
    !(a.toList ++ b.toList).contains (Char.ofNat 0)

end LeaseTarget

inductive LeaseState where
  | active
  | renewing
  | expired
  | revoked
  deriving DecidableEq, Repr

structure Lease where
  (id tenantId : Uuid)
  target : LeaseTarget
  state : LeaseState
  (ttlSeconds maxTtlSeconds : Nat)
  renewable : Bool
  (issuedAt expiresAt : Timestamp)
  revokedAt : Option Timestamp
  deriving DecidableEq

abbrev LeaseTable := Table Lease Lease.id

namespace LeaseStore

def faulted (fault : Option String) : Except VaultError Unit :=
  match fault with
  | some reason => .error (.database reason)
  | none => .ok ()

def sqlError (e : SqlError) : VaultError := .database e.message

/-- The time of revocation is not among the columns that are inserted. -/
def createLease (tenants : List Uuid) (rows : LeaseTable) (fault : Option String) (lease : Lease) :
    Except VaultError LeaseTable := do
  faulted fault
  if !lease.target.storable then throw (.database "unsupported Unicode escape sequence")
  match rows.insert? { lease with revokedAt := none } with
  | none => throw (sqlError (.uniqueViolation "leases_pkey"))
  | some rows' =>
    if tenants.contains lease.tenantId then return rows'
    else throw (sqlError (.foreignKeyViolation "leases" "leases_tenant_id_fkey"))

variable (rows : LeaseTable) (fault : Option String) (leaseId : Uuid)

def getLease : Except VaultError Lease := do
  faulted fault
  match rows.get? leaseId with
  | some lease => return lease
  | none => throw (.leaseNotFound leaseId.toString)

def updateOne (holds : Lease → Bool)
    (set : Lease → Lease) (hset : ∀ l, (set l).id = l.id) : Except VaultError LeaseTable := do
  faulted fault
  if rows.rows.any fun l => l.id == leaseId && holds l then
    return rows.update (fun l => l.id == leaseId && holds l) set hset
  else throw (.leaseNotFound leaseId.toString)

def renewLease (newExpiresAt : Timestamp) (newTtlSeconds : Nat) : Except VaultError LeaseTable :=
  updateOne rows fault leaseId (fun l => l.state == .active || l.state == .renewing)
    (fun l => { l with expiresAt := newExpiresAt, ttlSeconds := newTtlSeconds, state := .active })
    fun _ => rfl

def revokeLease (now : Timestamp) (leaseId : Uuid) : Except VaultError LeaseTable :=
  updateOne rows fault leaseId (fun _ => true)
    (fun l => { l with state := .revoked, revokedAt := some now }) fun _ => rfl

/-- The rows due at `now`, the first to expire first. -/
def listStaleLeases (now : Timestamp) (batchSize : Nat) : Except VaultError (List Lease) := do
  faulted fault
  return ((rows.select fun l => l.state == .active && decide (l.expiresAt < now)).insertionSort
    (fun a b => a.expiresAt ≤ b.expiresAt)).take batchSize

/-- A lease that is not active stays as it is. -/
def markLeaseExpired : Except VaultError LeaseTable := do
  faulted fault
  return rows.update (fun l => l.id == leaseId && l.state == .active)
    (fun l => { l with state := .expired }) fun _ => rfl

end LeaseStore

end WslVault.Storage
