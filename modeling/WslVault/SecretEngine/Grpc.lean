import WslVault.SecretEngine.Clients

/-!
# The gRPC handlers

Reading and writing a secret through `SecretService`
(`services/secret-engine/src/grpc.rs`). The tenant is a field of the request, and
the principal and its policies are metadata of the call.
-/

namespace WslVault.SecretEngine.Grpc

open Base Core Storage
open CryptoService (Status)

variable {σ : Type} [SecretStoreBackend σ] (state : AppState)
  (metadata callMetadata : Headers)

def vaultErrToStatus (err : VaultError) : Status :=
  match err with
  | .secretNotFound _ _ => ⟨.notFound, err.display⟩
  | .invalidPath _ _ | .validationError _ _ => ⟨.invalidArgument, err.display⟩
  | .casConflict _ _ => ⟨.aborted, err.display⟩
  | .versionDestroyed _ => ⟨.notFound, err.display⟩
  | .permissionDenied _ _ => ⟨.permissionDenied, err.display⟩
  | .unauthenticated _ => ⟨.unauthenticated, err.display⟩
  | .serviceUnavailable _ => ⟨.unavailable, err.display⟩
  | _ => ⟨.internal, err.display⟩

def extractGrpcPrincipalId : String :=
  ((metadata.lookup "x-principal-id").filter (· ≠ "")).getD "anonymous"

def extractGrpcPolicies : List String :=
  ((metadata.lookup "x-policies").map parseTags).getD []

def authorize (tenantId action path : String) : Except Status Unit :=
  (state.policy.authorize ⟨tenantId, extractGrpcPrincipalId callMetadata,
    extractGrpcPolicies callMetadata, action, resourceOf path⟩).mapError vaultErrToStatus

structure GetSecretRequest where
  (tenantId path : String)
  version : Option UInt32

structure GetSecretResponse where
  data : Bytes
  version : UInt32
  createdAt : Timestamp
  metadata : Metadata

structure PutSecretRequest where
  (tenantId path : String)
  data : Bytes
  cas : Option UInt32
  metadata : Metadata

/-- The ciphertext is sent as it is stored, without the id of its key. -/
def getSecret (req : GetSecretRequest) (store : σ) : Except Status GetSecretResponse := do
  let path ← (normalizeAndValidate req.path).mapError vaultErrToStatus
  refuseIf (req.tenantId = "") ⟨.invalidArgument, "tenant_id must not be empty"⟩
  authorize state callMetadata req.tenantId "read" path
  let entry ← (SecretStoreBackend.get store req.tenantId path req.version).mapError vaultErrToStatus
  let plaintext ← (state.crypto.decrypt ⟨req.tenantId, entry.ciphertext,
    buildAad req.tenantId path⟩).mapError fun e => ⟨.internal, "decryption failed: " ++ e⟩
  return ⟨plaintext, entry.version, entry.createdAt, entry.customMetadata⟩

/-- All that happens before the store is called. The metadata is the caller's. -/
def putRequest (req : PutSecretRequest)
    (now : Timestamp) (freshId : Uuid) : Except Status PutRequest := do
  let path ← (normalizeAndValidate req.path).mapError vaultErrToStatus
  refuseIf (req.tenantId = "") ⟨.invalidArgument, "tenant_id must not be empty"⟩
  refuseIf (req.data = []) ⟨.invalidArgument, "data must not be empty"⟩
  authorize state callMetadata req.tenantId "write" path
  let response ← (state.crypto.encrypt ⟨req.tenantId, req.data,
    buildAad req.tenantId path⟩).mapError fun e => ⟨.internal, "encryption failed: " ++ e⟩
  return {
    now := now
    freshId := freshId.toString
    tenantId := req.tenantId
    path := path
    ciphertext := response.ciphertextB64
    dekId := response.dekId
    cas := req.cas
    customMetadata := req.metadata
    maxVersions := none }

def putSecret (req : PutSecretRequest)
    (now : Timestamp) (freshId : Uuid) (store : σ) : σ × Except Status (String × UInt32) :=
  match putRequest state callMetadata req now freshId with
  | .error e => (store, .error e)
  | .ok r =>
    let out := SecretStoreBackend.put store freshId r
    (out.1, out.2.mapError vaultErrToStatus)

end WslVault.SecretEngine.Grpc
