import Mathlib.Data.List.AList
import WslVault.Core.Jwt

/-!
# Caller authentication

`crates/wslvault-core/src/auth.rs`: an identity comes from headers a gateway has set, if
the process trusts them, or from a verified token. The public keys of the per-tenant tokens
are fetched from the identity service and cached. Of each header the model has the first
value, if it is text.
-/

namespace WslVault.Core

open Base

structure Identity where
  (tenantId principalId : String)
  policies : List String
  expiresAt : Option Int
  superuser : Bool
  deriving DecidableEq, Repr

def headerValue (headers : Headers) (name : String) : Option String :=
  (headers.lookup name).filter (· ≠ "")

def actAsTenantHeader : String := "x-vault-act-tenant"

/-- The tenant operated on, and whether it is another than the caller's own. -/
def actAsTenant (identity : Identity) (headers : Headers) : String × Bool :=
  if !identity.superuser then (identity.tenantId, false)
  else
    match headerValue headers actAsTenantHeader with
    | some t => if t ≠ identity.tenantId then (t, true) else (identity.tenantId, false)
    | none => (identity.tenantId, false)

namespace Auth

abbrev AuthFailure := String

structure Env where
  (trustGatewayHeaders jwtSecret jwksUrl adminPolicy : Option String)

/-- Claims of a token, as the verifying services read them. -/
structure TokenClaims where
  (sub tenantId : String)
  policies : List String
  superuser : Bool
  exp : Int
  deriving DecidableEq, Repr

def TokenClaims.ofPayload (p : Jwt.Payload) : Except Jwt.Error TokenClaims := do
  let sub ← Jwt.required "sub" p.sub
  let tenantId ← Jwt.required "tenant_id" p.tenantId
  let exp ← Jwt.required "exp" p.exp
  return ⟨sub, tenantId, p.policies.getD [], p.superuser.getD false, exp⟩

variable (env : Env)

def gatewayHeadersTrusted : Bool :=
  ["true", "1", "yes"].contains
    (Text.toAsciiLowercase (Text.trim (env.trustGatewayHeaders.getD "")))

def splitCsv (raw : Option String) : List String :=
  match raw with
  | none => []
  | some s => ((Text.split ',' s).map Text.trim).filter (· ≠ "")

variable (headers : Headers)

def extractToken : Option String :=
  match headerValue headers "x-vault-token" with
  | some t => some t
  | none =>
    ((headerValue headers "authorization").bind fun a =>
      (Text.stripStart "Bearer " a).or (Text.stripStart "bearer " a)).map Text.trim |>.filter
        (· ≠ "")

/-- An entry of a JWKS document; `x` is the key in base64url. -/
structure JwkEntry where
  (kid x : String)
  deriving DecidableEq, Repr

/-- Keys by their id, and when a document was last asked for. -/
structure JwksCache where
  keys : AList (fun _ : String => Bytes)
  lastFetch : Option Timestamp

def JwksCache.empty : JwksCache := ⟨∅, none⟩

/-- A document is asked for at most once in this time. -/
def jwksMinRefetch : Timestamp := seconds 10

def JwksCache.add (keys : AList (fun _ : String => Bytes)) (entry : JwkEntry) :
    AList (fun _ : String => Bytes) :=
  match Base64.decodeUrl entry.x with
  | some raw => if raw.length = 32 then keys.insert entry.kid raw else keys
  | none => keys

/-- The list of revoked tokens, as a process may have it installed. -/
abbrev TokenRevocation := String → Except AuthFailure Bool

/-- What a request meets in its process: the environment, the time, what the
JWKS endpoint would answer, and the revocation list if there is one. -/
structure World where
  texts : Jwt.Texts
  env : Env
  now : Timestamp
  jwks : Except AuthFailure (List JwkEntry)
  revocation : Option TokenRevocation

/-- A computation over the cache; a failure keeps what it has written. -/
abbrev AuthM := EStateM AuthFailure JwksCache

namespace JwksCache

def refresh (w : World) : AuthM Unit := do
  match w.env.jwksUrl with
  | none =>
    throw "VAULT_JWKS_URL is not configured; per-tenant token verification is unavailable"
  | some _ =>
    let cache ← get
    if cache.lastFetch.any (w.now - · < jwksMinRefetch) then return ()
    modify fun cache => { cache with lastFetch := some w.now }
    match w.jwks with
    | .error e => throw e
    | .ok entries => modify fun cache => { cache with keys := entries.foldl add cache.keys }

def publicKeyFor (w : World) (kid : String) : AuthM Bytes := do
  match (← get).keys.lookup kid with
  | some key => return key
  | none =>
    refresh w
    match (← get).keys.lookup kid with
    | some key => return key
    | none => throw ("token signed by an unknown key " ++ debugStr kid)

end JwksCache

variable (w : World)

def verifyToken (text : String) : Except AuthFailure TokenClaims :=
  match w.env.jwtSecret with
  | none => .error "VAULT_JWT_SECRET is not configured; token authentication is unavailable"
  | some "" => .error "VAULT_JWT_SECRET is empty; token authentication is unavailable"
  | some secret =>
    (Jwt.decode w.texts TokenClaims.ofPayload (.hmac (asBytes secret))
      { Jwt.Validation.new .hs256 with validateAud := false } w.now text).mapError
        fun e => "invalid token: " ++ e.display

def verifyWithKey (text : String) (publicKey : Bytes) : Except AuthFailure TokenClaims :=
  (Jwt.decode w.texts TokenClaims.ofPayload (.ed25519 publicKey)
    { Jwt.Validation.new .edDSA with validateAud := false } w.now text).mapError
      fun e => "invalid token: " ++ e.display

def verifyTokenAsync (text : String) : AuthM TokenClaims := do
  match Jwt.decodeHeader w.texts text with
  | .error e => throw ("malformed token header: " ++ e.display)
  | .ok header =>
    match header.alg with
    | .edDSA =>
      match header.kid with
      | none => throw "EdDSA token carries no kid"
      | some kid =>
        let publicKey ← JwksCache.publicKeyFor w kid
        MonadExcept.ofExcept (verifyWithKey w text publicKey)
    | .hs256 => MonadExcept.ofExcept (verifyToken w text)
    | other => throw ("unsupported token algorithm " ++ other.debug)

def isTokenRevoked (text : String) : Except AuthFailure Bool :=
  match w.revocation with
  | some checker => checker text
  | none => .ok false

def defaultAdminPolicy : String := "wslvault:platform-admin"

/-- The policy this deployment treats as platform administration. -/
def adminPolicyName : String :=
  (env.adminPolicy.filter (· ≠ "")).getD defaultAdminPolicy

def isPlatformAdmin (identity : Identity) : Bool :=
  identity.superuser || identity.policies.contains (adminPolicyName env)

/-- The identity a gateway has asserted in headers of these names. -/
def assertedIdentity (tenantHeader principalHeader policiesHeader : String) : Option Identity :=
  (headerValue headers tenantHeader).map fun tenant =>
    { tenantId := tenant
      principalId := (headerValue headers principalHeader).getD "anonymous"
      policies := splitCsv (headerValue headers policiesHeader)
      expiresAt := none
      superuser := false }

def gatewayIdentity : Option Identity :=
  (assertedIdentity headers "x-tenant-id" "x-principal-id" "x-policies").or
    (assertedIdentity headers "x-vault-tenant-id" "x-vault-principal-id" "x-vault-policies")

def TokenClaims.identity (claims : TokenClaims) : Identity where
  tenantId := claims.tenantId
  principalId := claims.sub
  policies := claims.policies
  expiresAt := some claims.exp
  superuser := claims.superuser

def tokenIdentity (text : String) : AuthM Identity := do
  let claims ← verifyTokenAsync w text
  match isTokenRevoked w text with
  | .error e => throw e
  | .ok true => throw "token has been revoked"
  | .ok false => return claims.identity

def resolveIdentity (headers : Headers) : AuthM Identity :=
  match if gatewayHeadersTrusted w.env then gatewayIdentity headers else none with
  | some identity => return identity
  | none =>
    match extractToken headers with
    | some text => tokenIdentity w text
    | none =>
      throw ("missing authentication: supply X-Vault-Token, " ++
        "or X-Tenant-Id when behind the gateway")

end Auth

end WslVault.Core
