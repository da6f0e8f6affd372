import WslVault.SecretEngine.Grpc
import WslVault.SecretEngine.Http
import WslVault.SecretEngine.Kv2

/-!
# The three mounts over one store

A server answers REST, KV v2 and gRPC requests from the same store
(`services/secret-engine/src/server.rs`). Here a write and a read are a request
of any of the three, and their effect and answer are those of its handler.
-/

namespace WslVault.SecretEngine

open Base Core

variable {σ : Type} [SecretStoreBackend σ] (json : Kv2.SerdeJson)

inductive WriteRequest where
  | http (caller : Caller) (path : String) (body : Http.PutSecretBody)
  | kv2 (caller : Caller) (path : String) (body : Kv2.Kv2WriteRequest)
  | grpc (callMetadata : Headers) (req : Grpc.PutSecretRequest)

/-- A write, with what the handler finds while it serves it. -/
structure Write where
  state : AppState
  now : Timestamp
  freshId : Uuid
  request : WriteRequest

namespace Write

def prepared (w : Write) : Option PutRequest :=
  match w.request with
  | .http caller path body =>
    (Http.putRequest w.state caller path body w.now w.freshId).toOption
  | .kv2 caller path body =>
    (Kv2.writeRequest json w.state caller path body w.now w.freshId).toOption
  | .grpc callMetadata req =>
    (Grpc.putRequest w.state callMetadata req w.now w.freshId).toOption

/-- The bytes to be stored: a REST body has their base64 text, a KV v2 body the
map they are the JSON text of. -/
def plaintext (w : Write) : Option Bytes :=
  match w.request with
  | .http _ _ body => Base64.decode body.data
  | .kv2 _ _ body => (json.toVec body.data).toOption
  | .grpc _ req => some req.data

/-- The store after the write, and the number of the version on success. -/
def serve (store : σ) (w : Write) : σ × Option UInt32 :=
  match w.request with
  | .http caller path body =>
    let out := Http.putSecret w.state caller path body w.now w.freshId store
    (out.1, out.2.toOption.map (·.2))
  | .kv2 caller path body =>
    let out := Kv2.write json w.state caller path body w.now w.freshId store
    (out.1, out.2.toOption.map (·.version))
  | .grpc callMetadata req =>
    let out := Grpc.putSecret w.state callMetadata req w.now w.freshId store
    (out.1, out.2.toOption.map (·.2))

end Write

inductive ReadRequest where
  | http (caller : Caller) (path : String) (version : Option UInt32)
  | kv2 (caller : Caller) (path : String) (version : Option UInt32)
  | grpc (callMetadata : Headers) (req : Grpc.GetSecretRequest)

structure Read where
  state : AppState
  request : ReadRequest

/-- The bytes the caller gets, in the form the mount takes them for a write. -/
def Read.handed (store : σ) (q : Read) : Option Bytes :=
  match q.request with
  | .http caller path version =>
    (Http.getSecret q.state caller path version store).toOption.bind fun out =>
      Base64.decode out.data
  | .kv2 caller path version =>
    (Kv2.read json q.state caller path version store).toOption.bind fun out =>
      (json.toVec out.data).toOption
  | .grpc callMetadata req =>
    (Grpc.getSecret q.state callMetadata req store).toOption.map (·.data)

end WslVault.SecretEngine
