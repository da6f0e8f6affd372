import WslVault.CryptoService.Grpc
import WslVault.IdentityService.Token

/-!
# Token calls of the identity service

The calls of `services/identity-service/src/grpc.rs` that validate a token and revoke it.
Revocations are in the database, or in a set of the process if it has none. The digest of a
text is a parameter, as is what the texts decode to.
-/

namespace WslVault.IdentityService

open Core Base Storage
open CryptoService (Status)

inductive RevocationList where
  | database (rows : RevokedTokens)
  | memory (hashes : List String)

/-- What a call meets: the time, and the failure of the database if it fails. -/
structure Moment where
  now : Timestamp
  fault : Option String

structure Tokens where
  digest : String → String
  texts : Jwt.Texts

structure ValidateTokenResponse where
  valid : Bool
  (principalId tenantId : String)
  policies : List String
  deriving DecidableEq, Repr

def tokenReissueTtlSeconds : Int := 3600

def vaultErrToStatus : VaultError → Status
  | .unauthenticated reason => ⟨.unauthenticated, reason⟩
  | .permissionDenied _ reason => ⟨.permissionDenied, reason⟩
  | .tenantNotFound tenantId => ⟨.notFound, "not found: " ++ tenantId⟩
  | .validationError field reason => ⟨.invalidArgument, field ++ ": " ++ reason⟩
  | other => ⟨.internal, other.display⟩

def ValidateTokenResponse.invalid : ValidateTokenResponse := ⟨false, "", "", []⟩

variable (tokens : Tokens) (m : TokenManager)

/-- A list that cannot be read has every token on it. -/
def isRevoked (list : RevocationList) (moment : Moment) (text : String) : Bool :=
  match list with
  | .database rows =>
    match RevocationStore.isRevoked tokens.digest rows moment.fault moment.now text with
    | .ok revoked => revoked
    | .error _ => true
  | .memory hashes => hashes.contains (tokens.digest text)

def validateToken (list : RevocationList) (moment : Moment)
    (text : String) : Except Status ValidateTokenResponse :=
  if text = "" then .ok .invalid
  else if isRevoked tokens list moment text then .ok .invalid
  else
    match m.validateToken tokens.texts moment.now text with
    | .ok claims => .ok ⟨true, claims.sub, claims.tenantId, claims.policies⟩
    | .error (.unauthenticated _) => .ok .invalid
    | .error other => .error (vaultErrToStatus other)

/-- Tenant, principal and end of a revocation. A token that is not valid under
the shared secret is revoked for an hour. -/
def revocationOf (now : Timestamp) (text : String) : String × String × Int :=
  match m.validateToken tokens.texts now text with
  | .ok claims => (claims.tenantId, claims.sub, claims.exp)
  | .error _ => ("", "", Jwt.unix now + 3600)

def notPersisted : Status := ⟨.internal, "could not persist revocation"⟩

def revokeToken (list : RevocationList) (moment : Moment)
    (text : String) : Except Status RevocationList :=
  if text = "" then .error ⟨.invalidArgument, "token must not be empty"⟩
  else
    let (tenantId, principalId, expiresAt) := revocationOf tokens m moment.now text
    match list with
    | .database rows =>
      ((RevocationStore.revoke tokens.digest rows moment.fault moment.now text tenantId principalId
        expiresAt).mapError fun _ => notPersisted).map .database
    | .memory hashes => .ok (.memory (hashes.insert (tokens.digest text)))

structure RevokeTokenByHashRequest where
  (tokenHash tenantId principalId : String)
  expiresAt : Int

def revokeTokenByHash (list : RevocationList) (moment : Moment) (req : RevokeTokenByHashRequest) :
    Except Status RevocationList :=
  if !RevocationStore.isHexDigest req.tokenHash then
    .error ⟨.invalidArgument, "token_hash must be 64 hex characters"⟩
  else
    let expiresAt := if 0 < req.expiresAt then req.expiresAt else Jwt.unix moment.now + 3600
    match list with
    | .database rows =>
      ((RevocationStore.revokeByHash rows moment.fault moment.now req.tokenHash req.tenantId
        req.principalId expiresAt).mapError fun _ => notPersisted).map .database
    | .memory hashes => .ok (.memory (hashes.insert req.tokenHash))

inductive RevocationAction where
  | revokeToken (text : String)
  | revokeTokenByHash (req : RevokeTokenByHashRequest)
  | reap

structure RevocationEvent where
  moment : Moment
  action : RevocationAction

structure Ledger where
  list : RevocationList
  clock : Timestamp

def Ledger.settle (s : Ledger) (now : Timestamp) (reply : Except Status RevocationList) :
    Ledger × Except Status Unit :=
  match reply with
  | .ok list => (⟨list, now⟩, .ok ())
  | .error e => (⟨s.list, now⟩, .error e)

/-- The reaper of a process without a database has nothing to do. -/
def reap (list : RevocationList) (moment : Moment) : RevocationList :=
  match list, moment.fault with
  | .database rows, none => .database (RevocationStore.reapExpired rows moment.now)
  | list, _ => list

def Ledger.step (s : Ledger) (e : RevocationEvent) : Ledger × Except Status Unit :=
  s.settle e.moment.now <| match e.action with
    | .revokeToken text => revokeToken tokens m s.list e.moment text
    | .revokeTokenByHash req => revokeTokenByHash s.list e.moment req
    | .reap => .ok (reap s.list e.moment)

end WslVault.IdentityService
