import WslVault.Storage.ApiKeyStore

/-!
# Tenant invitations

The table `shared.tenant_invitations` (`031_tenant_invitations.sql`) and the functions
of `crates/wslvault-storage/src/invitation_store.rs`. An invitation as the functions
return it is its row. The digest of a token is a parameter, and the check of the
expiry is a field of the row.
-/

namespace WslVault.Storage

open Core Base

structure InvitationRow where
  (id tenantId : Uuid)
  (email tokenHash : String)
  policies : List String
  createdBy : String
  (createdAt expiresAt : Timestamp)
  usedAt : Option Timestamp
  apiKeyId : Option Uuid
  /-- `tenant_invitations_expiry_after_creation`. -/
  expiry_after_creation : createdAt < expiresAt
  deriving DecidableEq

abbrev InvitationTable := Table InvitationRow InvitationRow.id

inductive RedeemFailure where
  | notFound
  | alreadyUsed
  | expired
  deriving DecidableEq, Repr

namespace InvitationRow

def isRedeemable (now : Timestamp) (i : InvitationRow) : Bool :=
  i.usedAt.isNone && decide (now < i.expiresAt)

/-- `SET used_at = now(), api_key_id = $2`. -/
def use (now : Timestamp) (keyId : Uuid) (i : InvitationRow) : InvitationRow :=
  { i with usedAt := some now, apiKeyId := some keyId }

theorem id_use (now : Timestamp) (keyId : Uuid) (i : InvitationRow) : (i.use now keyId).id = i.id :=
  rfl

end InvitationRow

namespace InvitationStore

variable (digest : String → String) (invitations : InvitationTable) (tenants : TenantTable)
  (hash : String) (token : String)

def tokenHash : String := digest (Text.trim token)

def insertRow (invitations : InvitationTable) (row : InvitationRow) :
    Except SqlError InvitationTable := do
  refuseIf (invitations.rows.any fun i => i.tokenHash == row.tokenHash)
    (.uniqueViolation "tenant_invitations_token_hash_key")
  let invitations' ← okOr (invitations.insert? row) (.uniqueViolation "tenant_invitations_pkey")
  refuseIf (tenants.get? row.tenantId).isNone
    (.foreignKeyViolation "tenant_invitations" "tenant_invitations_tenant_id_fkey")
  return invitations'

/-- Only the digest of the token is stored. -/
def create (tenants : TenantTable) (invitations : InvitationTable) (now : Timestamp)
    (id tenantId : Uuid) (email token : String) (policies : List String) (createdBy : String)
    (expiresAt : Timestamp) : Except VaultError (InvitationTable × InvitationRow) :=
  let failed (e : SqlError) : VaultError :=
    .database ("could not create the invitation: " ++ e.message)
  if h : now < expiresAt then
    let row : InvitationRow :=
      { id := id
        tenantId := tenantId
        email := Text.trim email
        tokenHash := tokenHash digest token
        policies := policies
        createdBy := createdBy
        createdAt := now
        expiresAt := expiresAt
        usedAt := none
        apiKeyId := none
        expiry_after_creation := h }
    (insertRow tenants invitations row).mapError failed |>.map (·, row)
  else
    .error (failed
      (.checkViolation "tenant_invitations" "tenant_invitations_expiry_after_creation"))

/-- The invitation is not consumed. -/
def findByToken : Option InvitationRow :=
  invitations.rows.find? fun i => i.tokenHash == tokenHash digest token

/-- `WHERE token_hash = $1 AND used_at IS NULL AND expires_at > now()`. -/
def claimable (now : Timestamp) (i : InvitationRow) : Bool :=
  i.tokenHash == hash && i.isRedeemable now

/-- The `UPDATE` of `redeem`, where `now()` is the start of the transaction. -/
def claim (now : Timestamp) (keyId : Uuid) : Option (InvitationTable × InvitationRow) :=
  (invitations.rows.find? (claimable hash now)).map fun i =>
    (invitations.update (claimable hash now) (InvitationRow.use now keyId)
      (InvitationRow.id_use now keyId), i.use now keyId)

def classifyMiss : RedeemFailure :=
  match invitations.rows.find? fun i => i.tokenHash == hash with
  | some i => if i.usedAt.isSome then .alreadyUsed else .expired
  | none => .notFound

/-- The key is inserted first; the transaction is rolled back unless the invitation
is claimed too. Any failure to insert the key is reported as an unknown token. -/
def redeem (keys : ApiKeyTable) (invitations : InvitationTable)
    (now : Timestamp) (token : String) (key : ApiKeyRow) :
    Except RedeemFailure (ApiKeyTable × InvitationTable × InvitationRow) := do
  let hash := tokenHash digest token
  let keys' ← (ApiKeyStore.insert tenants keys key).mapError fun _ => RedeemFailure.notFound
  let (invitations', invitation) ←
    okOr (claim invitations hash now key.id) (classifyMiss invitations hash)
  return (keys', invitations', invitation)

def days (n : Int) : Timestamp := seconds (n * 86400)

/-- What `shared.reap_expired_invitations` deletes. -/
def reapable (now : Timestamp) (i : InvitationRow) : Bool :=
  match i.usedAt with
  | none => decide (i.expiresAt < now - days 7)
  | some used => decide (used < now - days 90)

end InvitationStore

end WslVault.Storage
