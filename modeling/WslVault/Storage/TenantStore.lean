import WslVault.Core.Error
import WslVault.Storage.SecretLifecycle

/-!
# Tenants

The table `system.tenants` (`001_schema.sql`, `035_secret_tags_environments.sql`)
and what `crates/wslvault-storage/src/tenant_store.rs` reads of it. The check of
the default environment is a field of the row.
-/

namespace WslVault.Storage

open Core Base

inductive TenantTier where
  | shared
  | dedicated
  | sovereign
  deriving DecidableEq, Repr

/-- `tier IN ('shared', 'dedicated', 'sovereign')`. -/
def TenantTier.ofText : String → Option TenantTier
  | "shared" => some shared
  | "dedicated" => some dedicated
  | "sovereign" => some sovereign
  | _ => none

inductive TenantKind where
  | project
  | production
  deriving DecidableEq, Repr

def TenantKind.debug : TenantKind → String
  | project => "Project"
  | production => "Production"

structure TenantRow where
  id : Uuid
  (slug displayName : String)
  tier : TenantTier
  rootKeyId : String
  (createdAt updatedAt : Timestamp)
  deletedAt : Option Timestamp
  tenantKind : TenantKind
  allowedEnvironments : List SecretEnvironment
  defaultEnvironment : SecretEnvironment
  tags : List String
  /-- `tenants_default_environment_check`. -/
  default_allowed : defaultEnvironment ∈ allowedEnvironments
  deriving DecidableEq

namespace TenantRow

def allows (t : TenantRow) (env : SecretEnvironment) : Bool := t.allowedEnvironments.contains env

def touch (now : Timestamp) (t : TenantRow) : TenantRow := { t with updatedAt := now }

/-- A tenant that is not deleted, for one environment. Runs are evaluated with it. -/
def live (id : Uuid) (slug displayName : String) (tenantKind : TenantKind)
    (env : SecretEnvironment) : TenantRow where
  id := id
  slug := slug
  displayName := displayName
  tier := .shared
  rootKeyId := ""
  createdAt := 0
  updatedAt := 0
  deletedAt := none
  tenantKind := tenantKind
  allowedEnvironments := [env]
  defaultEnvironment := env
  tags := []
  default_allowed := List.mem_singleton_self env

end TenantRow

abbrev TenantTable := Table TenantRow TenantRow.id

variable (tenants : TenantTable)

/-- `get_tenant` reads a deleted tenant's row too. -/
def getTenant (tenantId : Uuid) : Except VaultError TenantRow :=
  match tenants.get? tenantId with
  | some t => .ok t
  | none => .error (.tenantNotFound tenantId.toString)

end WslVault.Storage
