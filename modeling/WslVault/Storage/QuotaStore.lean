import Mathlib.Algebra.Group.Int.Defs
import WslVault.Core.Error
import WslVault.Storage.SecretLifecycle

/-!
# Tenant quotas

What a write reads and changes of `shared.tenant_quotas`: the check of
`crates/wslvault-storage/src/quota_store.rs`, and the trigger on `shared.secrets` that
keeps the count (`storage/postgres/init/012_tenant_quotas.sql`). Only the columns of the
two are modelled.
-/

namespace WslVault.Storage

open Core Base

structure QuotaRow where
  tenantId : Uuid
  maxSecrets : Int := 10000
  maxSecretSizeBytes : Int := 65536
  currentSecretCount : Int := 0

abbrev QuotaTable := Table QuotaRow QuotaRow.tenantId

inductive QuotaStoreError where
  | database (reason : String)
  | secretCountExceeded (current max : Int)
  | secretSizeExceeded (size : Nat) (max : Int)
  deriving DecidableEq

def QuotaStoreError.display : QuotaStoreError → String
  | database reason => "database error: " ++ reason
  | secretCountExceeded current max =>
    "secret count limit reached (" ++ toString current ++ "/" ++ toString max ++ ")"
  | secretSizeExceeded size max =>
    "secret value exceeds maximum size (" ++ toString size ++ "/" ++ toString max ++ " bytes)"

/-- `as usize` of an `i32`: the sign is extended to 64 bits. -/
def asUsize (n : Int) : Nat := (n % 2 ^ 64).toNat

namespace QuotaStore

/-- A tenant without a row has no quota. The count is compared whatever the write does. -/
def checkWriteQuota (quotas : QuotaTable) (tenantId : Uuid) (plaintextSize : Nat) :
    Except QuotaStoreError Unit :=
  match quotas.get? tenantId with
  | none => .ok ()
  | some q =>
    if q.currentSecretCount ≥ q.maxSecrets then
      .error (.secretCountExceeded q.currentSecretCount q.maxSecrets)
    else if plaintextSize > asUsize q.maxSecretSizeBytes then
      .error (.secretSizeExceeded plaintextSize q.maxSecretSizeBytes)
    else .ok ()

variable {quotas : QuotaTable} {tenantId : Uuid} {size : Nat}

theorem count_lt_of_check {q : QuotaRow} (h : checkWriteQuota quotas tenantId size = .ok ())
    (hq : quotas.get? tenantId = some q) : q.currentSecretCount < q.maxSecrets := by
  simp only [checkWriteQuota, hq] at h
  split at h
  · cases h
  · next hroom => exact not_le.mp hroom

end QuotaStore

inductive TriggerOp where
  | insert
  | update
  | delete
  deriving DecidableEq

def TriggerOp.delta : TriggerOp → Option Int
  | insert => some 1
  | delete => some (-1)
  | update => none

namespace QuotaRow

def setCount (n : Int) (q : QuotaRow) : QuotaRow := { q with currentSecretCount := n }

theorem tenantId_setCount (n : Int) (q : QuotaRow) : (q.setCount n).tenantId = q.tenantId := rfl

end QuotaRow

/-- `UPDATE shared.tenant_quotas SET current_secret_count = … WHERE tenant_id = …` on the
row that was found. -/
def setSecretCount (quotas : QuotaTable) (tenantId : Uuid) (n : Int) : QuotaTable :=
  quotas.update (·.tenantId == tenantId) (QuotaRow.setCount n) (QuotaRow.tenantId_setCount n)

/-- `update_secret_count`. The row made for a tenant that has none starts at the column's
default, which does not count the secret being inserted. -/
def updateSecretCount (quotas : QuotaTable) (op : TriggerOp) (tenantId : Uuid) :
    Except SqlError QuotaTable :=
  match op.delta with
  | none => .ok quotas
  | some delta =>
    match quotas.get? tenantId with
    | some q => do
      let count ← int4 (q.currentSecretCount + delta)
      return setSecretCount quotas tenantId (max 0 count)
    | none =>
      if delta = 1 then
        -- a row to conflict with would have been found above
        match quotas.insert? { tenantId := tenantId } with
        | some quotas' => .ok quotas'
        | none => .ok quotas
      else .ok quotas

end WslVault.Storage
