import WslVault.Base.Table
import WslVault.Core.Auth
import WslVault.Core.Uuid

/-!
# Revoked tokens

The table `system.revoked_tokens` (`020_token_revocation.sql`) and the functions
of `crates/wslvault-storage/src/revocation_store.rs`. A row stands for a token by
the digest of its text, and counts until the time it has as its end. The digest
is a parameter.
-/

namespace WslVault.Storage

open Core Base

structure RevokedToken where
  (tokenHash tenantId principalId : String)
  (expiresAt revokedAt : Timestamp)
  deriving DecidableEq, Repr

abbrev RevokedTokens := Table RevokedToken RevokedToken.tokenHash

/-- `DateTime::from_timestamp`: the seconds that `chrono` can represent. -/
def fromTimestamp (unix : Int) : Option Timestamp :=
  if -8334601228800 ≤ unix ∧ unix ≤ 8210266876799 then some (seconds unix) else none

namespace RevocationStore

/-- `INSERT … ON CONFLICT (token_hash) DO NOTHING`. -/
def insert (rows : RevokedTokens) (row : RevokedToken) : RevokedTokens :=
  (rows.insert? row).getD rows

def notRepresentable (unix : Int) : VaultError :=
  .validationError "expires_at"
    ("token exp " ++ toString unix ++ " is not a representable timestamp")

variable (digest : String → String) (rows : RevokedTokens) (fault : Option String)

/-- What the two calls that record a revocation have in common; `failure` starts the text of a
failed statement. -/
def record (now : Timestamp) (tokenHash tenantId principalId : String) (expiresAt : Int)
    (failure : String) : Except VaultError RevokedTokens :=
  match fromTimestamp expiresAt with
  | none => .error (notRepresentable expiresAt)
  | some t =>
    match fault with
    | some reason => .error (.database (failure ++ reason))
    | none => .ok (insert rows ⟨tokenHash, tenantId, principalId, t, now⟩)

def revoke (now : Timestamp) (token tenantId principalId : String) (expiresAt : Int) :
    Except VaultError RevokedTokens :=
  record rows fault now (digest token) tenantId principalId expiresAt
    "failed to record token revocation: "

def isHexDigest (text : String) : Bool :=
  text.toList.length == 64 && text.toList.all fun c => isHexDigit c.toLower

def revokeByHash (now : Timestamp)
    (tokenHash tenantId principalId : String) (expiresAt : Int) : Except VaultError RevokedTokens :=
  if !isHexDigest tokenHash then
    .error (.validationError "token_hash" "token_hash must be 64 hex characters (SHA-256)")
  else record rows fault now tokenHash tenantId principalId expiresAt
    "failed to record token revocation by hash: "

/-- A row whose end has come says nothing. -/
def isRevoked (now : Timestamp) (token : String) : Except VaultError Bool :=
  match fault with
  | some reason => .error (.database ("revocation lookup failed: " ++ reason))
  | none => .ok (rows.rows.any fun r => r.tokenHash == digest token && decide (now < r.expiresAt))

def reapExpired (now : Timestamp) : RevokedTokens :=
  rows.delete fun r => decide (r.expiresAt < now)

def authRevocationChecker (now : Timestamp) : Auth.TokenRevocation := fun token =>
  (isRevoked digest rows fault now token).mapError fun _ => "token revocation list is unavailable"

end RevocationStore

end WslVault.Storage
