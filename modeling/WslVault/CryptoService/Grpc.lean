import WslVault.CryptoService.KekStore

/-!
# The crypto service

The gRPC handlers of `services/crypto-service/src/grpc.rs` over the key store,
and the service as a state machine: its calls, and restarts. A restart keeps
the database and the root key and fills the rest of the store from them.
-/

namespace WslVault.CryptoService

open Base Core Storage

inductive Code where
  | notFound
  | permissionDenied
  | invalidArgument
  | aborted
  | unauthenticated
  | unavailable
  | internal
  deriving DecidableEq, Repr

structure Status where
  code : Code
  message : String
  deriving DecidableEq, Repr

def vaultErrorToStatus : VaultError → Status
  | .keyNotFound keyId => ⟨.notFound, "key not found: " ++ keyId⟩
  | .tenantNotFound tenantId => ⟨.notFound, "tenant not found: " ++ tenantId⟩
  | .permissionDenied resource reason =>
    ⟨.permissionDenied, "permission denied on " ++ resource ++ ": " ++ reason⟩
  | .validationError field reason =>
    ⟨.invalidArgument, "validation error on " ++ field ++ ": " ++ reason⟩
  | .encryptionFailed _ => ⟨.internal, "encryption operation failed"⟩
  | .decryptionFailed => ⟨.internal, "decryption operation failed"⟩
  | _ => ⟨.internal, "internal service error"⟩

def requireNonEmpty (value field : String) : Except Status Unit :=
  if Text.trim value = "" then
    .error ⟨.invalidArgument, "field '" ++ field ++ "' must not be empty"⟩
  else .ok ()

structure EncryptRequest where
  tenantId : String
  (plaintext aad : Bytes)

structure EncryptResponse where
  (ciphertextB64 dekId : String)
  deriving DecidableEq

structure DecryptRequest where
  (tenantId ciphertextB64 : String)
  aad : Bytes

structure GenerateDekResponse where
  keyId : String
  version : UInt32
  (algorithm wrappedDek : String)
  deriving DecidableEq

structure RotateKeyResponse where
  keyId : String
  newVersion : UInt32
  deriving DecidableEq

structure GetKeyDescriptorResponse where
  keyId : String
  version : UInt32
  (algorithm purpose state : String)
  deriving DecidableEq

abbrev ServiceM := EStateM Status KekStore

section

variable (aes : Aes256Gcm)

def encrypt (req : EncryptRequest) (nonce : Option Nonce) (env : Env) :
    ServiceM EncryptResponse := do
  MonadExcept.ofExcept (requireNonEmpty req.tenantId "tenant_id")
  if req.plaintext = [] then throw ⟨.invalidArgument, "plaintext must not be empty"⟩
  let keyId ← (KekStore.currentDekForEncrypt aes req.tenantId env).adaptExcept vaultErrorToStatus
  let dek ← (KekStore.getDek aes keyId req.tenantId env).adaptExcept vaultErrorToStatus
  let ciphertext ← MonadExcept.ofExcept
    ((encryptWithDek aes nonce dek req.plaintext req.aad).mapError vaultErrorToStatus)
  pure { ciphertextB64 := ciphertext, dekId := keyId }

def decryptWithChain (chain : List Key) (ciphertextB64 : String) (aad : Bytes) : Option Bytes :=
  chain.findSome? fun dek => (decryptWithDek aes dek ciphertextB64 aad).toOption

/-- The ciphertext field holds `<dek_id>:<ciphertext_b64>`. -/
def decrypt (req : DecryptRequest) (env : Env) : ServiceM Bytes := do
  MonadExcept.ofExcept (requireNonEmpty req.tenantId "tenant_id")
  match Text.splitOnce ':' req.ciphertextB64 with
  | none =>
    throw ⟨.invalidArgument, "ciphertext_b64 must be in the format '<dek_id>:<base64_ciphertext>'"⟩
  | some (dekId, ciphertextB64) =>
    MonadExcept.ofExcept (requireNonEmpty dekId "dek_id (embedded in ciphertext_b64)")
    MonadExcept.ofExcept
      (requireNonEmpty ciphertextB64 "base64 ciphertext (embedded in ciphertext_b64)")
    let chain ← (KekStore.getDekChain aes dekId req.tenantId env).adaptExcept vaultErrorToStatus
    match decryptWithChain aes chain ciphertextB64 req.aad with
    | none => throw (vaultErrorToStatus .decryptionFailed)
    | some plaintext => pure plaintext

def generateDek (tenantId context : String) (env : Env) : ServiceM GenerateDekResponse := do
  MonadExcept.ofExcept (requireNonEmpty tenantId "tenant_id")
  MonadExcept.ofExcept (requireNonEmpty context "context")
  let keyId ← (KekStore.generateAndStoreDek aes tenantId env).adaptExcept vaultErrorToStatus
  let (wrappedDek, version) ← MonadExcept.ofExcept
    (((← get).getDekMetadata keyId tenantId).mapError vaultErrorToStatus)
  pure { keyId := keyId, version := version, algorithm := "AES-256-GCM", wrappedDek := wrappedDek }

def rotateKey (tenantId keyId : String) (env : Env) : ServiceM RotateKeyResponse := do
  MonadExcept.ofExcept (requireNonEmpty tenantId "tenant_id")
  MonadExcept.ofExcept (requireNonEmpty keyId "key_id")
  let newVersion ← (KekStore.rotateDek aes tenantId keyId env).adaptExcept vaultErrorToStatus
  pure { keyId := keyId, newVersion := newVersion }

def getKeyDescriptor (keyId : String) : ServiceM GetKeyDescriptorResponse := do
  MonadExcept.ofExcept (requireNonEmpty keyId "key_id")
  let version ← MonadExcept.ofExcept
    (((← get).getDekVersionUnscoped keyId).mapError vaultErrorToStatus)
  pure { keyId := keyId, version := version, algorithm := "AES-256-GCM",
         purpose := "DataEncryption", state := "Active" }

inductive Call where
  | encrypt (req : EncryptRequest) (nonce : Option Nonce) (env : Env)
  | decrypt (req : DecryptRequest) (env : Env)
  | generateDek (tenantId context : String) (env : Env)
  | rotateKey (tenantId keyId : String) (env : Env)
  | getKeyDescriptor (keyId : String)
  /-- The process starts anew; its first two queries may fail. -/
  | restart (kekFault dekFault : Option String)

inductive Reply where
  | encrypted (response : EncryptResponse)
  | decrypted (plaintext : Bytes)
  | generated (response : GenerateDekResponse)
  | rotated (response : RotateKeyResponse)
  | described (response : GetKeyDescriptorResponse)
  | restarted
  deriving DecidableEq

def serve : Call → ServiceM Reply
  | .encrypt req nonce env => .encrypted <$> encrypt aes req nonce env
  | .decrypt req env => .decrypted <$> decrypt aes req env
  | .generateDek tenantId context env => .generated <$> generateDek aes tenantId context env
  | .rotateKey tenantId keyId env => .rotated <$> rotateKey aes tenantId keyId env
  | .getKeyDescriptor keyId => .described <$> getKeyDescriptor keyId
  | .restart kekFault dekFault => do
    modify fun store => KekStore.withSeal store.vaultSeal store.dbPool
    (KekStore.loadFromDb aes kekFault dekFault).adaptExcept vaultErrorToStatus
    pure .restarted

def step (store : KekStore) (call : Call) : KekStore × Except Status Reply :=
  perform (serve aes call) store

end

end WslVault.CryptoService
