import WslVault.SecretEngine.Clients

/-!
# The REST handlers

The native mount `/v1/secret` (`services/secret-engine/src/http.rs`): reading and
writing a secret, and confirming a rotation. Of a request the handlers get what
the authentication found out, the headers, the path and the body. The audit
events and metrics they emit are not part of the model.
-/

namespace WslVault.SecretEngine

open Base Core Storage

structure ApiError where
  status : Nat
  (code message : String)
  deriving DecidableEq, Repr

def vaultErrToResponse (err : VaultError) : ApiError := ⟨err.httpStatus, err.code, err.display⟩

namespace Http

variable {σ : Type} [SecretStoreBackend σ] (state : AppState) (caller : Caller) (path : String)

def authenticate : Except ApiError Identity :=
  caller.identity.mapError fun reason => ⟨401, "unauthenticated", reason⟩

/-- A request that was let through: whom it is for, by whom, and the path. -/
structure Authorized where
  (tenantId principalId path : String)

def authorized (action path : String) : Except ApiError Authorized := do
  let identity ← authenticate caller
  let tenantId := (actAsTenant identity caller.headers).1
  let normalizedPath ← (normalizeAndValidate path).mapError vaultErrToResponse
  (state.policy.authorize ⟨tenantId, identity.principalId, identity.policies, action,
    resourceOf normalizedPath⟩).mapError vaultErrToResponse
  return ⟨tenantId, identity.principalId, normalizedPath⟩

structure GetSecretResponseBody where
  data : String
  version : UInt32
  createdAt : Timestamp
  metadata : Metadata

def getSecret (version : Option UInt32) (store : σ) : Except ApiError GetSecretResponseBody := do
  let a ← authorized state caller "read" path
  let entry ← (SecretStoreBackend.get store a.tenantId a.path version).mapError vaultErrToResponse
  let plaintext ← (state.crypto.decrypt ⟨a.tenantId, combinedCiphertext entry,
    buildAad a.tenantId a.path⟩).mapError fun e =>
      ⟨500, "decryption_failed", "decryption failed: " ++ e⟩
  return ⟨Base64.encode plaintext, entry.version, entry.createdAt, entry.customMetadata⟩

structure PutSecretBody where
  data : String
  cas : Option UInt32
  metadata : Metadata
  environment : Option String
  tags : Option (List String)

/-- Trimmed, in lower case, without blanks and repetitions. -/
def normalizeTags (toLowercase : String → String) (tags : List String) : List String :=
  tags.foldl (fun out t =>
    let n := toLowercase (Text.trim t)
    if n ≠ "" ∧ n ∉ out then out ++ [n] else out) []

/-- The environment named by the request, that of the tenant, or `INT`. -/
def resolvePutEnvironment (tenantId : String) (explicit : Option String) :
    Except ApiError SecretEnvironment :=
  match (explicit.map Text.trim).filter (· ≠ "") with
  | some raw =>
    match SecretEnvironment.fromStr raw with
    | some env => .ok env
    | none => .error ⟨400, "invalid_environment", SecretEnvironment.unknown raw⟩
  | none =>
    match state.tenantPool, Uuid.parseStr tenantId with
    | some pool, some tid =>
      match pool.forDefault tid with
      | .ok tenant => .ok tenant.defaultEnvironment
      | .error _ => .ok .int
    | _, _ => .ok .int

def environmentNotAllowed (tenant : TenantRow) (env : SecretEnvironment) : String :=
  "environment " ++ env.asStr ++ " is not allowed for tenant '" ++ tenant.slug ++ "' (" ++
    tenant.tenantKind.debug ++ "). Allowed: " ++
    String.intercalate ", " (tenant.allowedEnvironments.map (·.asStr)) ++
    ". Keep PROD secrets in a separate production tenant (e.g. project-dta-prod); " ++
    "project tenants hold INT/TEST/ACC only."

/-- Without a pool, and for a tenant that has no row, every environment passes. -/
def validateSecretEnvironment (tenantId : String) (env : SecretEnvironment) :
    Except ApiError Unit :=
  match state.tenantPool with
  | none => .ok ()
  | some pool =>
    match Uuid.parseStr tenantId with
    | none => .error ⟨400, "invalid_tenant", "tenant id is not a valid UUID"⟩
    | some tid =>
      match pool.forCheck tid with
      | .error (.tenantNotFound _) => .ok ()
      | .error _ =>
        .error ⟨503, "tenant_lookup_failed", "could not verify tenant environment policy"⟩
      | .ok tenant =>
        if tenant.allows env then .ok ()
        else .error ⟨400, "environment_not_allowed", environmentNotAllowed tenant env⟩

/-- The metadata stored with the version: the labels in it are those checked. -/
def putMetadata (tenantId : String) (body : PutSecretBody) : Except ApiError Metadata := do
  let explicit := body.environment.or (body.metadata.lookup "environment")
  let env ← resolvePutEnvironment state tenantId explicit
  validateSecretEnvironment state tenantId env
  let tags := normalizeTags state.toLowercase
    (body.tags.getD (((body.metadata.lookup "tags").map parseTags).getD []))
  return (body.metadata.insert "environment" env.asStr).insert "tags" (String.intercalate "," tags)

def putRequest (body : PutSecretBody)
    (now : Timestamp) (freshId : Uuid) : Except ApiError PutRequest := do
  let a ← authorized state caller "write" path
  let plaintext ← okOr (Base64.decode body.data)
    ⟨400, "validation_error", "data field must be valid base64"⟩
  refuseIf (plaintext = []) ⟨400, "validation_error", "data must not be empty"⟩
  let response ← (state.crypto.encrypt ⟨a.tenantId, plaintext,
    buildAad a.tenantId a.path⟩).mapError fun e =>
      ⟨500, "encryption_failed", "encryption failed: " ++ e⟩
  let customMetadata ← putMetadata state a.tenantId body
  return {
    now := now
    freshId := freshId.toString
    tenantId := a.tenantId
    path := a.path
    ciphertext := response.ciphertextB64
    dekId := response.dekId
    cas := body.cas
    customMetadata := customMetadata
    maxVersions := none }

def putSecret (body : PutSecretBody)
    (now : Timestamp) (freshId : Uuid) (store : σ) : σ × Except ApiError (String × UInt32) :=
  match putRequest state caller path body now freshId with
  | .error e => (store, .error e)
  | .ok r =>
    let out := SecretStoreBackend.put store freshId r
    (out.1, out.2.mapError vaultErrToResponse)

structure ConfirmRotationResponse where
  (oldVersion newVersion : UInt32)
  graceEndsAt : Timestamp

/-- The path decides whether the caller may write, the body which rotation is
confirmed. -/
def confirmRotation (rotationId : String)
    (now : Timestamp) (store : σ) : σ × Except ApiError ConfirmRotationResponse :=
  match authorized state caller "write" path with
  | .error e => (store, .error e)
  | .ok a =>
    match SecretStoreBackend.confirmRotation store now a.tenantId rotationId a.principalId with
    | (store', .error e) => (store', .error (vaultErrToResponse e))
    | (store', .ok (oldVersion, newVersion, graceEndsAt)) =>
      (store', .ok ⟨oldVersion, newVersion, graceEndsAt⟩)

end Http

end WslVault.SecretEngine
