import WslVault.Base.Table
import WslVault.Core.Error
import WslVault.Core.Types
import WslVault.Core.Uuid

/-!
# Token signing keys

The table `system.tenant_signing_keys` (`024_tenant_signing_keys.sql`) and the
functions of `crates/wslvault-storage/src/signing_key_store.rs`. A key without a
tenant is the system's. Each owner has at most one active key.
-/

namespace WslVault.Storage

open Core Base

inductive SigningKeyState where
  | active
  | rotatingOut
  | retired
  deriving DecidableEq, Repr

/-- A row of `system.tenant_signing_keys`; the public key is in base64url. -/
structure SigningKeyRecord where
  kid : String
  tenantId : Option Uuid
  (publicKey wrappedPrivateKey : String)
  state : SigningKeyState
  createdAt : Timestamp
  deriving DecidableEq

abbrev SigningKeyTable := Table SigningKeyRecord SigningKeyRecord.kid

namespace SigningKeyStore

variable (keys : SigningKeyTable)

/-- `active_for_tenant` and `active_system_key`: the active key of an owner. -/
def active (owner : Option Uuid) : Option SigningKeyRecord :=
  keys.rows.find? fun r => r.tenantId == owner && r.state == .active

/-- `by_kid`, whatever the state. -/
def byKid (kid : String) : Option SigningKeyRecord := keys.get? kid

def publishable : List SigningKeyRecord :=
  (keys.select fun r => r.state == .active || r.state == .rotatingOut).insertionSort
    fun r r' => r'.createdAt ≤ r.createdAt

/-- `insert_active`: refused while the owner has an active key. -/
def insertActive (key : SigningKeyRecord) : Except VaultError SigningKeyTable :=
  if (active keys key.tenantId).isSome then
    .error (.database "could not store signing key: unique violation")
  else
    match keys.insert? { key with state := .active } with
    | some keys' => .ok keys'
    | none => .error (.database "could not store signing key: unique violation")

/-- A key that signs no more but still verifies. -/
def markRotatingOut (kid : String) : SigningKeyTable :=
  keys.update (fun r => r.kid == kid && r.state == .active)
    (fun r => { r with state := .rotatingOut }) fun _ => rfl

end SigningKeyStore

end WslVault.Storage
