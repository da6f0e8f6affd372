import WslVault.Core.Error
import WslVault.Core.Types
import WslVault.Core.Uuid

/-!
# The in-memory KV store

`KvStore` of the secret engine (`services/secret-engine/src/kv_store.rs`): the versions of a
secret under its tenant and path, newest last. A write numbers its version one above the
newest live version, appends it, and prunes the oldest undestroyed versions beyond the
retention limit. The clock and the generator of secret ids are inputs of the requests that
read them. Every request holds the store's lock from start to end.
-/

namespace WslVault.SecretEngine

open Core

structure SecretKey where
  (tenantId path : String)
  deriving DecidableEq, Repr

structure VersionEntry where
  version : UInt32
  (ciphertext dekId : String)
  createdAt : Timestamp
  deletedAt : Option Timestamp
  destroyed : Bool
  customMetadata : Metadata
  deriving DecidableEq

structure SecretEntry where
  (secretId tenantId path : String)
  maxVersions : UInt32
  casRequired : Bool
  (createdAt updatedAt : Timestamp)
  versions : List VersionEntry
  environment : String
  tags : List String
  customMetadata : Metadata
  deriving DecidableEq

def defaultMaxVersions : UInt32 := 10

def VersionEntry.live (v : VersionEntry) : Bool := !v.destroyed && v.deletedAt.isNone

/-- The number of the newest live version, 0 if there is none. -/
def SecretEntry.currentVersionNumber (e : SecretEntry) : UInt32 :=
  ((e.versions.reverse.find? (·.live)).map (·.version)).getD 0

def SecretEntry.getVersion (e : SecretEntry) (version : UInt32) : Option VersionEntry :=
  e.versions.find? (·.version == version)

abbrev KvStore := AList (fun _ : SecretKey => SecretEntry)

namespace KvStore

def get (store : KvStore) (tenantId path : String) (version : Option UInt32) :
    Except VaultError VersionEntry :=
  match store.lookup ⟨tenantId, path⟩ with
  | none => .error (.secretNotFound path version)
  | some entry =>
    let targetVersion := version.getD entry.currentVersionNumber
    if targetVersion = 0 then .error (.secretNotFound path none)
    else
      match entry.getVersion targetVersion with
      | none => .error (.secretNotFound path (some targetVersion))
      | some verEntry =>
        if verEntry.destroyed then .error (.versionDestroyed targetVersion)
        else .ok verEntry

end KvStore

/-- The `tags` metadata value: comma-separated, trimmed, blanks dropped. -/
def parseTags (s : String) : List String :=
  ((Text.split ',' s).map Text.trim).filter (· ≠ "")

/-- The arguments of `put`, with the clock reading and the secret id it would
generate for a new path. -/
structure PutRequest where
  now : Timestamp
  (freshId tenantId path ciphertext : String)
  dekId : String
  cas : Option UInt32
  customMetadata : Metadata
  maxVersions : Option UInt32
  deriving DecidableEq

def PutRequest.key (r : PutRequest) : SecretKey := ⟨r.tenantId, r.path⟩

def PutRequest.newEntry (r : PutRequest) : SecretEntry where
  secretId := r.freshId
  tenantId := r.tenantId
  path := r.path
  maxVersions := r.maxVersions.getD defaultMaxVersions
  casRequired := r.cas.isSome
  createdAt := r.now
  updatedAt := r.now
  versions := []
  environment := (r.customMetadata.lookup "environment").getD "INT"
  tags := ((r.customMetadata.lookup "tags").map parseTags).getD []
  customMetadata := r.customMetadata

/-- Labels and retention limit are refreshed before the CAS check, so a
refused write changes them too. -/
def PutRequest.refresh (r : PutRequest) (e : SecretEntry) : SecretEntry :=
  { e with
    environment := (r.customMetadata.lookup "environment").getD e.environment
    tags := ((r.customMetadata.lookup "tags").map parseTags).getD e.tags
    customMetadata := r.customMetadata
    maxVersions := r.maxVersions.getD e.maxVersions }

def PutRequest.newVersion (r : PutRequest) (version : UInt32) : VersionEntry where
  version := version
  ciphertext := r.ciphertext
  dekId := r.dekId
  createdAt := r.now
  deletedAt := none
  destroyed := false
  customMetadata := r.customMetadata

def liveVersions (vs : List VersionEntry) : List UInt32 :=
  (vs.filter (!·.destroyed)).map (·.version)

/-- `live_versions.len() as u32`, which truncates. -/
def liveCount (vs : List VersionEntry) : UInt32 := UInt32.ofNat (liveVersions vs).length

/-- The numbers pruning removes: those of the oldest undestroyed versions in
excess of the limit. -/
def pruneTargets (effectiveMax : UInt32) (vs : List VersionEntry) : List UInt32 :=
  if liveCount vs > effectiveMax then
    (liveVersions vs).take (liveCount vs - effectiveMax).toNat
  else []

/-- Pruning removes by number: every version whose number is a target goes. -/
def prune (effectiveMax : UInt32) (vs : List VersionEntry) : List VersionEntry :=
  vs.filter (fun v => !(pruneTargets effectiveMax vs).contains v.version)

/-- A destroyed version keeps its number and loses its data. -/
def VersionEntry.destroy (v : VersionEntry) (now : Timestamp) : VersionEntry :=
  { v with
    ciphertext := ""
    dekId := ""
    destroyed := true
    deletedAt := some (v.deletedAt.getD now) }

namespace KvStore

def writeEntry (store : KvStore) (r : PutRequest) : SecretEntry :=
  r.refresh ((store.lookup r.key).getD r.newEntry)

def put (store : KvStore) (r : PutRequest) : KvStore × Except VaultError (String × UInt32) :=
  let entry := store.writeEntry r
  let current := entry.currentVersionNumber
  match r.cas.filter (fun expected => current ≠ expected) with
  | some expected => (store.insert r.key entry, .error (.casConflict expected current))
  | none =>
    let newVersion := current + 1
    let versions := prune entry.maxVersions (entry.versions ++ [r.newVersion newVersion])
    (store.insert r.key { entry with versions := versions, updatedAt := r.now },
      .ok (entry.secretId, newVersion))

/-- An empty list means the current live version. -/
def softDeleteTargets (entry : SecretEntry) (versions : List UInt32) : List UInt32 :=
  if versions.isEmpty then
    if entry.currentVersionNumber > 0 then [entry.currentVersionNumber] else []
  else versions

/-- Changes the targets among the versions of an entry, those of them that still can be. -/
def change (store : KvStore) (tenantId path : String) (targets : SecretEntry → List UInt32)
    (still : VersionEntry → Bool) (f : VersionEntry → VersionEntry) :
    KvStore × Except VaultError UInt32 :=
  match store.lookup ⟨tenantId, path⟩ with
  | none => (store, .error (.secretNotFound path none))
  | some entry =>
    let hit := fun v : VersionEntry => (targets entry).contains v.version && still v
    (store.insert ⟨tenantId, path⟩
        { entry with versions := entry.versions.map fun v => if hit v then f v else v },
      .ok (UInt32.ofNat (entry.versions.countP hit)))

def softDelete (store : KvStore) (now : Timestamp) (tenantId path : String)
    (versions : List UInt32) : KvStore × Except VaultError UInt32 :=
  store.change tenantId path (softDeleteTargets · versions) VersionEntry.live
    fun v => { v with deletedAt := some now }

/-- An empty list means every undestroyed version. -/
def destroyTargets (entry : SecretEntry) (versions : List UInt32) : List UInt32 :=
  if versions.isEmpty then liveVersions entry.versions else versions

def destroy (store : KvStore) (now : Timestamp) (tenantId path : String)
    (versions : List UInt32) : KvStore × Except VaultError UInt32 :=
  store.change tenantId path (destroyTargets · versions) (!·.destroyed) (·.destroy now)

end KvStore

inductive Request where
  | get (tenantId path : String) (version : Option UInt32)
  | put (r : PutRequest)
  | softDelete (now : Timestamp) (tenantId path : String) (versions : List UInt32)
  | destroy (now : Timestamp) (tenantId path : String) (versions : List UInt32)
  deriving DecidableEq

inductive Reply where
  | got (result : Except VaultError VersionEntry)
  | wrote (result : Except VaultError (String × UInt32))
  | changed (result : Except VaultError UInt32)

def KvStore.serve (store : KvStore) : Request → KvStore × Reply
  | .get tenantId path version => (store, .got (store.get tenantId path version))
  | .put r => ((store.put r).1, .wrote (store.put r).2)
  | .softDelete now tenantId path versions =>
    let out := store.softDelete now tenantId path versions
    (out.1, .changed out.2)
  | .destroy now tenantId path versions =>
    let out := store.destroy now tenantId path versions
    (out.1, .changed out.2)

/-- What the handlers call of the `SecretStoreBackend` trait. A write gets the
id that is drawn for a new path. -/
class SecretStoreBackend (σ : Type) where
  get : σ → (tenantId path : String) → Option UInt32 → Except VaultError VersionEntry
  put : σ → Uuid → PutRequest → σ × Except VaultError (String × UInt32)
  confirmRotation : σ → Timestamp → (tenantId rotationId confirmedBy : String) →
    σ × Except VaultError (UInt32 × UInt32 × Timestamp)

instance : SecretStoreBackend KvStore where
  get := KvStore.get
  put store _ r := store.put r
  confirmRotation store _ _ _ _ :=
    (store, .error (.unsupportedOperation "kv_memory" "confirm_rotation"))

end WslVault.SecretEngine
