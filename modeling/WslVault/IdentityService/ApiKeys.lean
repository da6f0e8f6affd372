import WslVault.IdentityService.SigningKeys
import WslVault.Storage.ApiKeyStore

/-!
# API keys of the identity service

`services/identity-service/src/api_keys.rs`: the manager of the keys over both of its
backends, the gate of the management endpoints with their handlers, and the exchange of a
key for a token. Random bytes, ids and times are drawn outside, and the digest of a raw key
is a parameter.
-/

namespace WslVault.IdentityService

open Core Base Storage

inductive ApiKeyError where
  | keyNotFound
  | keyExpired
  | keyRevoked
  | duplicateName (name : String)
  | invalidKeyFormat
  | tokenIssuance (reason : String)
  | tenantNotFound (tenantId : String)
  | storage (reason : String)
  | missingTenantId (message : String)
  deriving DecidableEq, Repr

structure ErrorResponse where
  status : Nat
  (code message : String)
  deriving DecidableEq, Repr

namespace ApiKeyError

def statusCode : ApiKeyError → Nat
  | keyNotFound => 404
  | keyExpired => 401
  | keyRevoked => 401
  | duplicateName _ => 409
  | invalidKeyFormat => 400
  | tokenIssuance _ => 500
  | tenantNotFound _ => 404
  | storage _ => 500
  | missingTenantId _ => 400

def errorCode : ApiKeyError → String
  | keyNotFound => "key_not_found"
  | keyExpired => "key_expired"
  | keyRevoked => "key_revoked"
  | duplicateName _ => "duplicate_name"
  | invalidKeyFormat => "invalid_key_format"
  | tokenIssuance _ => "token_issuance_failed"
  | tenantNotFound _ => "tenant_not_found"
  | storage _ => "storage_error"
  | missingTenantId _ => "missing_tenant_id"

def display : ApiKeyError → String
  | keyNotFound => "api key not found"
  | keyExpired => "api key has expired"
  | keyRevoked => "api key has been revoked"
  | duplicateName name =>
    "an api key with name '" ++ name ++ "' already exists for this tenant"
  | invalidKeyFormat =>
    "api key format is invalid; expected 'wslv_<base64url>'. " ++
      "This must be an API key from POST /v1/api-keys — not VAULT_ADMIN_TOKEN " ++
      "or another deployment secret"
  | tokenIssuance reason => "token issuance failed: " ++ reason
  | tenantNotFound tenantId => "tenant '" ++ tenantId ++ "' does not exist"
  | storage reason => "api key store unavailable: " ++ reason
  | missingTenantId message => message

def response (e : ApiKeyError) : ErrorResponse := ⟨e.statusCode, e.errorCode, e.display⟩

end ApiKeyError

/-- A key as the manager has it; the tenant is a text. -/
structure ApiKeyRecord where
  id : Uuid
  (tenantId name : String)
  keyHash : List UInt8
  keyPrefix : String
  (pathPrefixes policies : List String)
  createdBy : String
  createdAt : Timestamp
  (expiresAt lastUsedAt : Option Timestamp)
  (isSuperuser mfaRequired : Bool)
  revokedAt : Option Timestamp
  rateLimitPerMinute : Int
  deriving DecidableEq

def ApiKeyRecord.ofRow (row : ApiKeyRow) : ApiKeyRecord where
  id := row.id
  tenantId := row.tenantId.toString
  name := row.name
  keyHash := row.keyHash
  keyPrefix := row.keyPrefix
  pathPrefixes := row.pathPrefixes
  policies := row.policies
  createdBy := row.createdBy
  createdAt := row.createdAt
  expiresAt := row.expiresAt
  lastUsedAt := row.lastUsedAt
  isSuperuser := row.isSuperuser
  mfaRequired := row.mfaRequired
  revokedAt := row.revokedAt
  rateLimitPerMinute := row.rateLimitPerMinute

def ApiKeyRecord.row (record : ApiKeyRecord) (tenantId : Uuid) : ApiKeyRow where
  id := record.id
  tenantId := tenantId
  name := record.name
  keyHash := record.keyHash
  keyPrefix := record.keyPrefix
  pathPrefixes := record.pathPrefixes
  policies := record.policies
  createdBy := record.createdBy
  createdAt := record.createdAt
  expiresAt := record.expiresAt
  lastUsedAt := none
  revokedAt := none
  rateLimitPerMinute := record.rateLimitPerMinute
  isSuperuser := record.isSuperuser
  mfaRequired := record.mfaRequired

structure ApiKeyCreateResponse where
  id : Uuid
  (key keyPrefix name tenantId : String)
  (policies pathPrefixes : List String)
  expiresAt : Option Timestamp
  createdAt : Timestamp
  deriving DecidableEq

structure ApiKeyCreateRequest where
  (name tenantId : String)
  (policies pathPrefixes : Option (List String))
  (expiresInSeconds rateLimitPerMinute : Option Int)
  (isSuperuser mfaRequired : Bool)

structure ApiKeyValidationResult where
  keyId : Uuid
  tenantId : String
  (policies pathPrefixes : List String)
  rateLimitPerMinute : Int
  (isSuperuser mfaRequired : Bool)
  deriving DecidableEq

/-- What a request draws: random bytes, an id, and the time. -/
structure Draw where
  secret : Bytes
  id : Uuid
  now : Timestamp

inductive Backend where
  | database (tenants : TenantTable) (keys : ApiKeyTable)
  | memory (byHash : AList (fun _ : List UInt8 => ApiKeyRecord))
      (idToHash : AList (fun _ : Uuid => List UInt8))

def storeErr : VaultError → ApiKeyError
  | .tenantNotFound tenantId => .tenantNotFound tenantId
  | other => .storage other.display

namespace ApiKeyManager

def generateKey (secret : Bytes) : String := "wslv_" ++ Base64.encodeUrl secret

def parseKeyRandomPortion (rawKey : String) : Except ApiKeyError String :=
  okOr ((Text.stripStart "wslv_" rawKey).filter (· ≠ "")) .invalidKeyFormat

variable (hashKey : String → List UInt8) (draw : Draw)

/-- A superuser's key requires the second factor. -/
def mint (req : ApiKeyCreateRequest) (name createdBy : String) : String × ApiKeyRecord :=
  let rawKey := generateKey draw.secret
  let record : ApiKeyRecord :=
    { id := draw.id
      tenantId := req.tenantId
      name := name
      keyHash := hashKey rawKey
      keyPrefix := String.ofList (((Text.stripStart "wslv_" rawKey).getD rawKey).toList.take 8)
      pathPrefixes := req.pathPrefixes.getD []
      policies := req.policies.getD []
      createdBy := createdBy
      createdAt := draw.now
      expiresAt := req.expiresInSeconds.map fun secs => draw.now + seconds secs
      lastUsedAt := none
      revokedAt := none
      rateLimitPerMinute := req.rateLimitPerMinute.getD 60
      isSuperuser := req.isSuperuser
      mfaRequired := req.mfaRequired || req.isSuperuser }
  (rawKey, record)

/-- The row of a key that an invitation confers, which is never a superuser's. -/
def mintRow (tenantId : Uuid) (name : String)
    (policies : List String) (createdBy : String) (mfaRequired : Bool) : String × ApiKeyRow :=
  let req : ApiKeyCreateRequest :=
    { tenantId := tenantId.toString
      name := name
      policies := some policies
      pathPrefixes := none
      expiresInSeconds := none
      rateLimitPerMinute := none
      isSuperuser := false
      mfaRequired := mfaRequired }
  let minted := mint hashKey draw req name createdBy
  (minted.1, minted.2.row tenantId)

def createResponse (rawKey : String) (record : ApiKeyRecord) : ApiKeyCreateResponse where
  id := record.id
  key := rawKey
  keyPrefix := record.keyPrefix
  name := record.name
  tenantId := record.tenantId
  policies := record.policies
  pathPrefixes := record.pathPrefixes
  expiresAt := record.expiresAt
  createdAt := record.createdAt

/-- A violated unique index is reported as the name's. -/
def insertErr (name : String) : VaultError → ApiKeyError
  | .validationError "name" _ => .duplicateName name
  | other => storeErr other

def createKey (backend : Backend) (req : ApiKeyCreateRequest) (createdBy : String) :
    Except ApiKeyError (Backend × ApiKeyCreateResponse) := do
  let name := Text.trim req.name
  refuseIf (name = "") .invalidKeyFormat
  match backend with
  | .database tenants keys =>
    let tenantId ← (ApiKeyStore.resolveTenantId tenants req.tenantId).mapError storeErr
    refuseIf (ApiKeyStore.activeNameExists keys tenantId name) (.duplicateName name)
    let canonical := { req with tenantId := tenantId.toString, name := name }
    let minted := mint hashKey draw canonical name createdBy
    let keys' ← (ApiKeyStore.insert tenants keys (minted.2.row tenantId)).mapError (insertErr name)
    return (.database tenants keys', createResponse minted.1 minted.2)
  | .memory byHash idToHash =>
    refuseIf (byHash.entries.any fun e =>
      e.2.tenantId == req.tenantId && e.2.name == name && e.2.revokedAt.isNone)
      (.duplicateName name)
    let minted := mint hashKey draw req name createdBy
    return (.memory (byHash.insert minted.2.keyHash minted.2)
      (idToHash.insert minted.2.id minted.2.keyHash), createResponse minted.1 minted.2)

/-! ## Keys in use -/

def validationResult (record : ApiKeyRecord) : ApiKeyValidationResult where
  keyId := record.id
  tenantId := record.tenantId
  policies := record.policies
  pathPrefixes := record.pathPrefixes
  rateLimitPerMinute := record.rateLimitPerMinute
  isSuperuser := record.isSuperuser
  mfaRequired := record.mfaRequired

def findByHash (backend : Backend) (keyHash : List UInt8) : Option ApiKeyRecord :=
  match backend with
  | .database _ keys => (ApiKeyStore.findByHash keys keyHash).map ApiKeyRecord.ofRow
  | .memory byHash _ => byHash.lookup keyHash

def touch (backend : Backend) (now : Timestamp) (keyHash : List UInt8) (record : ApiKeyRecord) :
    Backend :=
  match backend with
  | .database tenants keys =>
    match Uuid.parseStr record.tenantId with
    | some tenantId => .database tenants (ApiKeyStore.touchLastUsed keys now record.id tenantId)
    | none => .database tenants keys
  | .memory byHash idToHash =>
    .memory (byHash.insert keyHash { record with lastUsedAt := some now }) idToHash

def validateKey (now : Timestamp) (backend : Backend)
    (rawKey : String) : Except ApiKeyError (Backend × ApiKeyValidationResult) := do
  let _ ← parseKeyRandomPortion rawKey
  let record ← okOr (findByHash backend (hashKey rawKey)) .keyNotFound
  refuseIf record.revokedAt.isSome .keyRevoked
  refuseIf (record.expiresAt.any (· < now)) .keyExpired
  return (touch backend now (hashKey rawKey) record, validationResult record)

def findById (backend : Backend) (keyId : Uuid) (tenantId : String) :
    Except ApiKeyError ApiKeyRecord :=
  match backend with
  | .database tenants keys => do
    let tenantId ← (ApiKeyStore.resolveTenantId tenants tenantId).mapError storeErr
    let row ← okOr (ApiKeyStore.findById keys keyId tenantId) .keyNotFound
    return .ofRow row
  | .memory byHash idToHash => do
    let keyHash ← okOr (idToHash.lookup keyId) .keyNotFound
    let record ← okOr (byHash.lookup keyHash) .keyNotFound
    refuseIf (record.tenantId ≠ tenantId) .keyNotFound
    return record

/-- Revoking a revoked key changes nothing. -/
def revokeKey (now : Timestamp) (backend : Backend) (keyId : Uuid) (tenantId : String) :
    Except ApiKeyError Backend :=
  match backend with
  | .database tenants keys => do
    let tenantId ← (ApiKeyStore.resolveTenantId tenants tenantId).mapError storeErr
    let (keys', revoked) := ApiKeyStore.revoke keys now keyId tenantId
    if revoked then return .database tenants keys'
    else
      let _ ← okOr (ApiKeyStore.findById keys keyId tenantId) .keyNotFound
      return .database tenants keys
  | .memory byHash idToHash => do
    let keyHash ← okOr (idToHash.lookup keyId) .keyNotFound
    let record ← okOr (byHash.lookup keyHash) .keyNotFound
    refuseIf (record.tenantId ≠ tenantId) .keyNotFound
    if record.revokedAt.isSome then return .memory byHash idToHash
    else
      return .memory (byHash.insert keyHash { record with revokedAt := some now }) idToHash

def listKeys (now : Timestamp) (backend : Backend) (tenantId : String) :
    Except ApiKeyError (List ApiKeyRecord) :=
  match backend with
  | .database tenants keys => do
    let tenantId ← (ApiKeyStore.resolveTenantId tenants tenantId).mapError storeErr
    return (ApiKeyStore.listActiveForTenant keys now tenantId).map fun row =>
      { ApiKeyRecord.ofRow row with keyHash := [] }
  | .memory byHash _ =>
    let active := (byHash.entries.map (·.2)).filter fun r =>
      r.tenantId == tenantId && r.revokedAt.isNone && r.expiresAt.all (now ≤ ·)
    .ok ((active.map fun r => { r with keyHash := [] }).insertionSort
      fun r r' => r'.createdAt ≤ r.createdAt)

/-- The request for the key that replaces another: all of the old key's rights,
and no expiry. -/
def rotationRequest (old : ApiKeyRecord) (tenantId : String) : ApiKeyCreateRequest where
  name := old.name
  tenantId := tenantId
  policies := some old.policies
  pathPrefixes := some old.pathPrefixes
  expiresInSeconds := none
  rateLimitPerMinute := some old.rateLimitPerMinute
  isSuperuser := old.isSuperuser
  mfaRequired := old.mfaRequired

/-- The old key is revoked even if the new one cannot be created. -/
def rotateKey (backend : Backend) (keyId : Uuid)
    (tenantId : String) : Backend × Except ApiKeyError ApiKeyCreateResponse :=
  match findById backend keyId tenantId with
  | .error e => (backend, .error e)
  | .ok old =>
    match revokeKey draw.now backend keyId tenantId with
    | .error e => (backend, .error e)
    | .ok revoked =>
      match createKey hashKey draw revoked (rotationRequest old tenantId) old.createdBy with
      | .error e => (revoked, .error e)
      | .ok (created, response) => (created, .ok response)

end ApiKeyManager

structure AdminIdentity where
  principalId : String
  tenantId : Option String
  superuser : Bool
  deriving DecidableEq, Repr

inductive AdminRejection where
  | unauthenticated
  | forbidden
  deriving DecidableEq, Repr

def AdminRejection.response : AdminRejection → ErrorResponse
  | unauthenticated =>
    ⟨401, "admin_auth_required",
      "api key management requires an administrator credential: " ++
        "a Bearer token carrying the administrator policy, or X-Admin-Token"⟩
  | forbidden =>
    ⟨403, "admin_policy_required",
      "this account is signed in but does not carry the administrator " ++
        "policy required to manage tenants and API keys"⟩

structure AdminAuth where
  bootstrapToken : Option String
  requiredPolicy : String
  tokenManager : TokenManager

/-- What a request finds: what texts decode to, the time, and the revocation
list if one is installed. -/
structure AdminWorld where
  texts : Jwt.Texts
  now : Timestamp
  revocation : Option Auth.TokenRevocation

namespace AdminAuth

variable (auth : AdminAuth) (w : AdminWorld) (keys : Option SigningKeys) (headers : Headers)

/-- The signing keys are tried first, then the shared secret. -/
def claimsOf (bearer : String) : Option SigningKeys × Except AdminRejection TokenClaims :=
  let shared := (auth.tokenManager.validateToken w.texts w.now bearer).mapError
    fun _ => AdminRejection.unauthenticated
  match keys with
  | none => (none, shared)
  | some keys =>
    let done := perform (SigningKeys.verify w.texts w.now bearer) keys
    match done.2 with
    | .ok claims => (some done.1, .ok claims)
    | .error _ => (some done.1, shared)

/-- The claims of an administrator. A superuser needs no policy. -/
def identityOf (claims : TokenClaims) : Except AdminRejection AdminIdentity :=
  if claims.superuser then .ok ⟨claims.sub, some claims.tenantId, true⟩
  else if auth.requiredPolicy ∈ claims.policies then .ok ⟨claims.sub, some claims.tenantId, false⟩
  else .error .forbidden

def bearerOf : Option String :=
  (((headers.lookup "authorization").bind (Text.stripStart "Bearer ")).map Text.trim).filter
    (· ≠ "")

/-- The bootstrap token makes a superuser of no tenant. -/
def authenticate : Option SigningKeys × Except AdminRejection AdminIdentity :=
  if auth.bootstrapToken.isSome ∧ headers.lookup "x-admin-token" = auth.bootstrapToken then
    (keys, .ok ⟨"bootstrap-admin", none, true⟩)
  else
    match bearerOf headers with
    | none => (keys, .error .unauthenticated)
    | some bearer =>
      match (w.revocation.map fun checker => checker bearer).getD (.ok false) with
      | .ok false =>
        let done := auth.claimsOf w keys bearer
        (done.1, done.2 >>= auth.identityOf)
      | _ => (keys, .error .unauthenticated)

end AdminAuth

/-- A caller with a token acts on its own tenant. -/
def requestTenant (identity : AdminIdentity) (headers : Headers) : Except ApiKeyError String :=
  match identity.tenantId with
  | some tenant => .ok tenant
  | none =>
    okOr ((headers.lookup "x-tenant-id").filter (· ≠ ""))
      (.missingTenantId "X-Tenant-Id header is required when authenticating with X-Admin-Token")

structure ApiKeyMetadataResponse where
  id : Uuid
  (name tenantId keyPrefix : String)
  (policies pathPrefixes : List String)
  createdBy : String
  createdAt : Timestamp
  (expiresAt lastUsedAt : Option Timestamp)
  rateLimitPerMinute : Int
  mfaRequired : Bool
  deriving DecidableEq

def ApiKeyMetadataResponse.ofRecord (r : ApiKeyRecord) : ApiKeyMetadataResponse where
  id := r.id
  name := r.name
  tenantId := r.tenantId
  keyPrefix := r.keyPrefix
  policies := r.policies
  pathPrefixes := r.pathPrefixes
  createdBy := r.createdBy
  createdAt := r.createdAt
  expiresAt := r.expiresAt
  lastUsedAt := r.lastUsedAt
  rateLimitPerMinute := r.rateLimitPerMinute
  mfaRequired := r.mfaRequired

/-- A tenant of the caller replaces the one that the body names. -/
def payloadTenant (identity : AdminIdentity) (payload : ApiKeyCreateRequest) :
    Except ErrorResponse ApiKeyCreateRequest :=
  match identity.tenantId with
  | some tenant => .ok { payload with tenantId := tenant }
  | none =>
    if Text.trim payload.tenantId = "" then
      .error (ApiKeyError.missingTenantId
        "tenant_id is required when authenticating with X-Admin-Token").response
    else .ok payload

/-- Only a superuser creates a superuser's key. -/
def handleCreateApiKey (hashKey : String → List UInt8) (draw : Draw) (backend : Backend)
    (identity : AdminIdentity) (payload : ApiKeyCreateRequest) :
    Except ErrorResponse (Backend × ApiKeyCreateResponse) := do
  refuseIf (payload.isSuperuser = true ∧ identity.superuser = false)
    ⟨403, "superuser_grant_denied", "only a superuser can create a superuser key"⟩
  let payload ← payloadTenant identity payload
  (ApiKeyManager.createKey hashKey draw backend payload identity.principalId).mapError
    ApiKeyError.response

def handleListApiKeys (now : Timestamp) (backend : Backend) (identity : AdminIdentity)
    (headers : Headers) : Except ErrorResponse (List ApiKeyMetadataResponse) := do
  let tenantId ← (requestTenant identity headers).mapError ApiKeyError.response
  let keys ← (ApiKeyManager.listKeys now backend tenantId).mapError ApiKeyError.response
  return keys.map ApiKeyMetadataResponse.ofRecord

def parseId (text : String) : Except ErrorResponse Uuid :=
  okOr (Uuid.parseStr text) ⟨400, "invalid_id", "api key id must be a valid UUID"⟩

def handleRevokeApiKey (now : Timestamp) (backend : Backend) (identity : AdminIdentity)
    (id : String) (headers : Headers) : Except ErrorResponse Backend := do
  let keyId ← parseId id
  let tenantId ← (requestTenant identity headers).mapError ApiKeyError.response
  (ApiKeyManager.revokeKey now backend keyId tenantId).mapError ApiKeyError.response

def rotationTarget (identity : AdminIdentity) (id : String) (headers : Headers) :
    Except ErrorResponse (Uuid × String) := do
  let keyId ← parseId id
  let tenantId ← (requestTenant identity headers).mapError ApiKeyError.response
  return (keyId, tenantId)

/-- Whose key it is does not matter here. -/
def handleRotateApiKey (hashKey : String → List UInt8) (draw : Draw) (backend : Backend)
    (identity : AdminIdentity) (id : String) (headers : Headers) :
    Backend × Except ErrorResponse ApiKeyCreateResponse :=
  match rotationTarget identity id headers with
  | .error e => (backend, .error e)
  | .ok (keyId, tenantId) =>
    let done := ApiKeyManager.rotateKey hashKey draw backend keyId tenantId
    (done.1, done.2.mapError ApiKeyError.response)

structure ApiKeyState where
  tokenManager : TokenManager
  custody : KeyCustody

def apiKeyJwtTtlSeconds : Int := 3600

variable (state : ApiKeyState)

/-- A token under the key of the tenant, or of the system for a superuser. Without
signing keys it is one under the shared secret, and none for a superuser. -/
def issueForTenant (now : Timestamp) (keys : Option SigningKeys)
    (draw : KeyDraw) (subject tenantId : String) (policies : List String) (superuser : Bool) :
    Option SigningKeys × Except String (Jwt.Token × Timestamp) :=
  match keys with
  | none =>
    if superuser then
      (none, .error "per-tenant signing keys are required to issue a superuser token")
    else
      (none, (state.tokenManager.issueToken now subject tenantId policies
        apiKeyJwtTtlSeconds).mapError VaultError.display)
  | some keys =>
    match if superuser then some none else (Uuid.parseStr tenantId).map some with
    | none => (some keys, .error "tenant_id is not a UUID")
    | some owner =>
      let done := perform (SigningKeys.signerFor state.custody draw owner) keys
      (some done.1, done.2 >>= fun signer =>
        (state.tokenManager.issueTokenWithKey now subject tenantId policies apiKeyJwtTtlSeconds
          signer.encoding (SigningKeys.header signer.kid) superuser).mapError VaultError.display)

structure PendingChallenge where
  apiKeyId : Uuid
  tenantId : String
  policies : List String
  superuser : Bool
  expiresAt : Int
  deriving DecidableEq

structure ApiKeyAuthResponse where
  token : Jwt.Token
  expiresAt : Timestamp
  tenantId : String
  policies : List String
  deriving DecidableEq

def issueResponse (now : Timestamp) (keys : Option SigningKeys)
    (draw : KeyDraw) (keyId : Uuid) (tenantId : String) (policies : List String)
    (superuser : Bool) : Option SigningKeys × Except ErrorResponse ApiKeyAuthResponse :=
  let done := issueForTenant state now keys draw keyId.toString tenantId policies superuser
  (done.1, (done.2.map fun issued => ⟨issued.1, issued.2, tenantId, policies⟩).mapError fun e =>
    (ApiKeyError.tokenIssuance e).response)

inductive AuthOutcome where
  | token (response : ApiKeyAuthResponse)
  | challenge (pending : PendingChallenge)
  deriving DecidableEq

def challengeTtl : Int := 120

/-- `handle_auth_api_key`; `enrolled` is what the tables of the second factor say. -/
def handleAuthApiKey (hashKey : String → List UInt8) (state : ApiKeyState) (now : Timestamp)
    (backend : Backend) (keys : Option SigningKeys) (draw : KeyDraw)
    (enrolled : Except String Bool) (rawKey : String) :
    Option SigningKeys × Except ErrorResponse AuthOutcome :=
  match ApiKeyManager.validateKey hashKey now backend rawKey with
  | .error e => (keys, .error e.response)
  | .ok (_, result) =>
    if result.mfaRequired then
      match enrolled with
      | .ok true =>
        (keys, .ok (.challenge ⟨result.keyId, result.tenantId, result.policies,
          result.isSuperuser, Jwt.unix now + challengeTtl⟩))
      | .ok false =>
        (keys, .error ⟨403, "", "this key requires an authenticator; " ++
          "enrol one via /v1/auth/mfa/totp/enroll"⟩)
      | .error _ => (keys, .error ⟨503, "", "could not verify the second factor"⟩)
    else
      let done := issueResponse state now keys draw result.keyId result.tenantId result.policies
        result.isSuperuser
      (done.1, done.2.map .token)

/-- The end of `handle_mfa_verify`, once the code of a challenge was accepted. -/
def handleMfaVerify (now : Timestamp) (keys : Option SigningKeys)
    (draw : KeyDraw) (pending : PendingChallenge) :
    Option SigningKeys × Except ErrorResponse ApiKeyAuthResponse :=
  if pending.expiresAt ≤ Jwt.unix now then
    (keys, .error ⟨403, "", "challenge is unknown or expired"⟩)
  else
    issueResponse state now keys draw pending.apiKeyId pending.tenantId pending.policies
      pending.superuser

end WslVault.IdentityService
