import WslVault.CryptoService.Verify.Durability
import WslVault.SecretEngine.Mounts
import WslVault.SecretEngine.Verify.KvStore
import WslVault.SecretEngine.Verify.PgStore

/-!
# One plaintext on every mount

All three mounts encrypt under the same associated data. For a read the crypto service wants
key id and ciphertext joined by a colon; the gRPC mount sends the ciphertext alone.
-/

namespace WslVault.CryptoService

open Base Core

variable {text : String}

end WslVault.CryptoService

namespace WslVault.SecretEngine

open Base Core Storage

variable {text path : String} {r : PutRequest}

section Crypto

variable {aes : Aes256Gcm} {display : CryptoService.Status → String}
  {store : CryptoService.KekStore} {nonce : Option Nonce} {env : CryptoService.Env}

end Crypto

/-- The request stores the plaintext, encrypted for its own tenant and path. -/
structure Stores (state : AppState) (p : Bytes) (r : PutRequest) : Prop where
  maxVersions : r.maxVersions = none
  encrypted : state.crypto.encrypt ⟨r.tenantId, p, buildAad r.tenantId r.path⟩ =
    .ok ⟨r.ciphertext, r.dekId⟩

variable {state : AppState} {now : Timestamp} {freshId : Uuid}

theorem Http.putRequest_eq_ok {caller : Caller} {body : PutSecretBody}
    (h : putRequest state caller path body now freshId = .ok r) :
    (∃ p, Base64.decode body.data = some p ∧ Stores state p r) ∧
      putMetadata state r.tenantId body = .ok r.customMetadata := by
  simp only [putRequest, bind_eq_ok, okOr_eq_ok, pure_eq_ok] at h
  obtain ⟨a, -, p, hp, -, -, resp, hresp, metadata, hmetadata, rfl⟩ := h
  exact ⟨⟨p, hp, rfl, mapError_eq_ok hresp⟩, hmetadata⟩

theorem Kv2.writeRequest_eq_ok {json : SerdeJson} {caller : Caller} {body : Kv2WriteRequest}
    (h : writeRequest json state caller path body now freshId = .ok r) :
    (∃ p, json.toVec body.data = .ok p ∧ Stores state p r) ∧
      (∃ identity, caller.identity = .ok identity ∧ r.tenantId = identity.tenantId) ∧
      r.customMetadata = ∅ := by
  simp only [writeRequest, bind_eq_ok, pure_eq_ok] at h
  obtain ⟨identity, hidentity, path', -, -, -, -, -, p, hp, resp, hresp, rfl⟩ := h
  exact ⟨⟨p, mapError_eq_ok hp, rfl, mapError_eq_ok hresp⟩,
    ⟨identity, mapError_eq_ok hidentity, rfl⟩, rfl⟩

theorem Grpc.putRequest_eq_ok {callMetadata : Headers} {req : PutSecretRequest}
    (h : putRequest state callMetadata req now freshId = .ok r) :
    Stores state req.data r ∧ r.tenantId = req.tenantId ∧ r.customMetadata = req.metadata := by
  simp only [putRequest, bind_eq_ok, pure_eq_ok] at h
  obtain ⟨path, -, -, -, -, -, -, -, resp, hresp, rfl⟩ := h
  exact ⟨⟨rfl, mapError_eq_ok hresp⟩, rfl, rfl⟩

variable {σ : Type} [SecretStoreBackend σ] {json : Kv2.SerdeJson}

theorem Write.serve_eq (w : Write) (store : σ) :
    w.serve json store =
      match w.prepared json with
      | none => (store, none)
      | some r =>
        let out := SecretStoreBackend.put store w.freshId r
        (out.1, out.2.toOption.map (·.2)) := by
  unfold serve prepared
  cases w.request with
  | http caller path body =>
    dsimp only [Http.putSecret]
    cases Http.putRequest w.state caller path body w.now w.freshId with
    | error e => rfl
    | ok r =>
      exact Prod.ext rfl (congrArg (Option.map _) (toOption_mapError _ _))
  | kv2 caller path body =>
    dsimp only [Kv2.write]
    cases Kv2.writeRequest json w.state caller path body w.now w.freshId with
    | error e => rfl
    | ok r =>
      dsimp only [Except.toOption]
      rcases SecretStoreBackend.put store w.freshId r with ⟨store', e | out⟩
      · rfl
      · rfl
  | grpc callMetadata req =>
    dsimp only [Grpc.putSecret]
    cases Grpc.putRequest w.state callMetadata req w.now w.freshId with
    | error e => rfl
    | ok r =>
      exact Prod.ext rfl (congrArg (Option.map _) (toOption_mapError _ _))

namespace ReadRequest

def sent (entry : VersionEntry) : ReadRequest → String
  | .http .. | .kv2 .. => combinedCiphertext entry
  | .grpc .. => entry.ciphertext

def shown (json : Kv2.SerdeJson) (p : Bytes) : ReadRequest → Option Bytes
  | .http .. | .grpc .. => some p
  | .kv2 .. => (json.toVec (Kv2.plaintextToMap json p)).toOption

end ReadRequest

/-- The read is let through, and asks the store for a version of the path. -/
def Read.Reads (q : Read) (tenantId path : String) (version : Option UInt32) : Prop :=
  match q.request with
  | .http caller raw asked =>
    ∃ by_, Http.authorized q.state caller "read" raw = .ok ⟨tenantId, by_, path⟩ ∧
      asked = version
  | .kv2 caller raw asked =>
    ∃ identity, caller.identity = .ok identity ∧ identity.tenantId = tenantId ∧
      normalizeAndValidate raw = .ok path ∧
      Kv2.authorize q.state identity "read" path = .ok () ∧ asked = version
  | .grpc callMetadata req =>
    req.tenantId = tenantId ∧ tenantId ≠ "" ∧ normalizeAndValidate req.path = .ok path ∧
      Grpc.authorize q.state callMetadata tenantId "read" path = .ok () ∧ req.version = version

/-- Whether the mount shows the plaintext as it was stored: the REST mount does,
the KV v2 mount if it is the JSON text of a map, the gRPC mount never. -/
def ReadRequest.Exact (json : Kv2.SerdeJson) (p : Bytes) : ReadRequest → Prop
  | .http .. => True
  | .kv2 .. => ∃ map, json.toVec map = .ok p
  | .grpc .. => False

end WslVault.SecretEngine
