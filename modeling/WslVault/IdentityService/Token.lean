import WslVault.Storage.RevocationStore

/-!
# Tokens of the identity service

`TokenManager` of `services/identity-service/src/token.rs`. A token is signed with the
secret that the services share, or with the key of a tenant. Issuing gives the token; its
text is any that decodes to it.
-/

namespace WslVault.IdentityService

open Core Base Storage

structure TokenClaims where
  (sub tenantId : String)
  policies : List String
  superuser : Bool
  (iss aud : String)
  (iat exp : Int)
  deriving DecidableEq, Repr

namespace TokenClaims

/-- Of the claims, only the superuser flag has a default. -/
def ofPayload (p : Jwt.Payload) : Except Jwt.Error TokenClaims := do
  let sub ← Jwt.required "sub" p.sub
  let tenantId ← Jwt.required "tenant_id" p.tenantId
  let policies ← Jwt.required "policies" p.policies
  let iss ← Jwt.required "iss" p.iss
  let aud ← Jwt.required "aud" p.aud
  let iat ← Jwt.required "iat" p.iat
  let exp ← Jwt.required "exp" p.exp
  return ⟨sub, tenantId, policies, p.superuser.getD false, iss, aud, iat, exp⟩

def payload (c : TokenClaims) : Jwt.Payload where
  sub := some c.sub
  tenantId := some c.tenantId
  policies := some c.policies
  superuser := some c.superuser
  iss := some c.iss
  aud := some c.aud
  iat := some c.iat
  exp := some c.exp

end TokenClaims

structure TokenManager where
  secret : Bytes
  (issuer audience : String)

namespace TokenManager

def fromEnv (jwtSecret issuer audience : Option String) : Except String TokenManager :=
  match jwtSecret with
  | none => .error "VAULT_JWT_SECRET environment variable is required but not set"
  | some secret =>
    if (asBytes secret).length < 32 then
      .error ("VAULT_JWT_SECRET must be at least 32 bytes (got " ++
        toString (asBytes secret).length ++ ")")
    else .ok ⟨asBytes secret, issuer.getD "wslvault", audience.getD "wslvault"⟩

variable (m : TokenManager)

/-- Tokens expire precisely, and are bound to the deployment. -/
def validation : Jwt.Validation where
  algorithm := .hs256
  leeway := 0
  iss := some m.issuer
  aud := some m.audience
  validateAud := true

def claims (now : Timestamp) (principalId tenantId : String)
    (policies : List String) (ttlSeconds : Int) (superuser : Bool) : TokenClaims where
  sub := principalId
  tenantId := tenantId
  policies := policies
  superuser := superuser
  iss := m.issuer
  aud := m.audience
  iat := Jwt.unix now
  exp := Jwt.unix now + ttlSeconds

def issueTokenWithKey (now : Timestamp) (principalId tenantId : String)
    (policies : List String) (ttlSeconds : Int) (signer : Jwt.Signer) (header : Jwt.Header)
    (superuser : Bool) : Except VaultError (Jwt.Token × Timestamp) :=
  match fromTimestamp (Jwt.unix now + ttlSeconds) with
  | none => .error (.internal "overflow computing token expiry timestamp")
  | some expiresAt =>
    ((Jwt.encode header (m.claims now principalId tenantId policies ttlSeconds superuser).payload
      signer).mapError fun e => .internal ("JWT encoding failed: " ++ e.display)).map
        fun token => (token, expiresAt)

def issueToken (now : Timestamp) (principalId tenantId : String)
    (policies : List String) (ttlSeconds : Int) : Except VaultError (Jwt.Token × Timestamp) :=
  m.issueTokenWithKey now principalId tenantId policies ttlSeconds (.hmac m.secret)
    ⟨.hs256, none⟩ false

def validateToken (texts : Jwt.Texts) (now : Timestamp) (text : String) :
    Except VaultError TokenClaims :=
  (Jwt.decode texts TokenClaims.ofPayload (.hmac m.secret) m.validation now text).mapError
    fun e => .unauthenticated ("invalid token: " ++ e.display)

end TokenManager

end WslVault.IdentityService
