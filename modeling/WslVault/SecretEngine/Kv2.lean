import WslVault.Core.Json
import WslVault.SecretEngine.Clients

/-!
# The KV v2 handlers

The mount `/v1/kv` (`services/secret-engine/src/kv2.rs`) speaks the API of
HashiCorp Vault: the value at a path is a map, which is stored as its JSON text.
-/

namespace WslVault.SecretEngine.Kv2

open Base Core Storage

variable {σ : Type} [SecretStoreBackend σ] (state : AppState)

structure VaultErrorBody where
  status : Nat
  errors : List String
  deriving DecidableEq, Repr

def vaultError (status : Nat) (message : String) : VaultErrorBody := ⟨status, [message]⟩

abbrev JsonMap := List (String × Json)

structure SerdeJson where
  fromSlice : Bytes → Option Json
  toVec : JsonMap → Except String Bytes

def fromUtf8 (bytes : Bytes) : Option String := String.fromUTF8? ⟨bytes.toArray⟩

variable (json : SerdeJson)

/-- A blob that is no JSON object is the one value of a map. -/
def plaintextToMap (plaintext : Bytes) : JsonMap :=
  match json.fromSlice plaintext with
  | some (.object map) => map
  | _ => [("value", .string ((fromUtf8 plaintext).getD (Base64.encode plaintext)))]

structure Kv2Metadata where
  createdTime : Timestamp
  deletionTime : Option Timestamp
  destroyed : Bool
  version : UInt32
  customMetadata : Option Metadata

structure Kv2ReadData where
  data : JsonMap
  metadata : Kv2Metadata

structure Kv2WriteRequest where
  data : JsonMap
  cas : Option UInt32

def resolveIdentity (caller : Caller) : Except VaultErrorBody Identity :=
  caller.identity.mapError (vaultError 403)

def normalized (path : String) : Except VaultErrorBody String :=
  (normalizeAndValidate path).mapError fun e => vaultError 400 e.display

def authorize (identity : Identity) (action path : String) : Except VaultErrorBody Unit :=
  (state.policy.authorize ⟨identity.tenantId, identity.principalId, identity.policies, action,
    resourceOf path⟩).mapError fun e => vaultError 403 e.display

def storeError (e : VaultError) : VaultErrorBody := vaultError e.httpStatus e.display

def decrypt (tenantId path : String) (entry : VersionEntry) : Except VaultErrorBody Bytes :=
  (state.crypto.decrypt ⟨tenantId, combinedCiphertext entry, buildAad tenantId path⟩).mapError
    fun e => vaultError 500 ("decryption failed: " ++ e)

def encrypt (tenantId path : String) (plaintext : Bytes) :
    Except VaultErrorBody CryptoService.EncryptResponse :=
  (state.crypto.encrypt ⟨tenantId, plaintext, buildAad tenantId path⟩).mapError
    fun e => vaultError 500 ("encryption failed: " ++ e)

def read (json : SerdeJson) (state : AppState) (caller : Caller) (path : String)
    (version : Option UInt32) (store : σ) : Except VaultErrorBody Kv2ReadData := do
  let identity ← resolveIdentity caller
  let path ← normalized path
  authorize state identity "read" path
  let entry ← (SecretStoreBackend.get store identity.tenantId path version).mapError storeError
  let plaintext ← decrypt state identity.tenantId path entry
  return {
    data := plaintextToMap json plaintext
    metadata :=
      { createdTime := entry.createdAt
        deletionTime := entry.deletedAt
        destroyed := entry.destroyed
        version := entry.version
        customMetadata :=
          if entry.customMetadata.entries.isEmpty then none else some entry.customMetadata } }

/-- All that happens before the store is called. No metadata is stored. -/
def writeRequest (state : AppState) (caller : Caller) (path : String)
    (body : Kv2WriteRequest) (now : Timestamp) (freshId : Uuid) :
    Except VaultErrorBody PutRequest := do
  let identity ← resolveIdentity caller
  let path ← normalized path
  refuseIf body.data.isEmpty (vaultError 400 "data must not be empty")
  authorize state identity "write" path
  let plaintext ← (json.toVec body.data).mapError fun e =>
    vaultError 400 ("could not serialise data: " ++ e)
  let response ← encrypt state identity.tenantId path plaintext
  return {
    now := now
    freshId := freshId.toString
    tenantId := identity.tenantId
    path := path
    ciphertext := response.ciphertextB64
    dekId := response.dekId
    cas := body.cas
    customMetadata := ∅
    maxVersions := none }

def write (state : AppState) (caller : Caller) (path : String)
    (body : Kv2WriteRequest) (now : Timestamp) (freshId : Uuid) (store : σ) :
    σ × Except VaultErrorBody Kv2Metadata :=
  match writeRequest json state caller path body now freshId with
  | .error e => (store, .error e)
  | .ok r =>
    match SecretStoreBackend.put store freshId r with
    | (store', .error e) => (store', .error (storeError e))
    | (store', .ok (_, version)) =>
      (store', .ok
        { createdTime := now
          deletionTime := none
          destroyed := false
          version := version
          customMetadata := none })

end WslVault.SecretEngine.Kv2
