import WslVault.Base.Run
import WslVault.CryptoService.Sys

/-!
# Calls that overlap

`current_dek_for_encrypt`, `generate_and_store_dek` and `rotate_dek` of
`services/crypto-service/src/kek_store.rs` as tasks that run in parallel. A step is a
stretch of one task between two points where it waits, for a lock or for the database.
-/

namespace WslVault.CryptoService

open Base Core Storage Storage.KeyStore KekStore

inductive Goal where
  | encrypt
  | create
  | rotate (keyId : String)
  deriving DecidableEq

structure Task where
  tenantId : String
  goal : Goal
  env : Env

inductive Phase where
  | start
  /-- For the read lock on the tenants' KEKs. -/
  | needKek
  /-- For the write lock on them, as there was none for the tenant. -/
  | kekMiss
  | kekUnsaved (rawKek : Key) (wrapped : String)
  /-- For the write lock on the DEKs. -/
  | haveKek (kek : Key)
  | dekUnsaved (keyId wrapped : String)
  /-- For the write lock on the current DEKs. -/
  | made (keyId : String)
  | rotated (keyId : String) (version : UInt32) (wrapped : String)
  | marked (keyId : String) (version : UInt32) (wrapped : String)
  deriving DecidableEq

inductive Next where
  | goOn (phase : Phase)
  | finished (answer : Answer)
  deriving DecidableEq

namespace Task

variable (aes : Aes256Gcm) (task : Task) (keyId : String) (version : UInt32) (wrapped : String)

/-- The first stretch: the fast path of an encryption, or the check of a rotation. -/
def begin : StoreM Next :=
  match task.goal with
  | .encrypt => do
    match ← useCurrentDek task.tenantId with
    | some keyId => pure (.finished (.keyId keyId))
    | none => pure (.goOn .needKek)
  | .create => pure (.goOn .needKek)
  | .rotate keyId => do
    match (← get).deks.lookup keyId with
    | none => throw (.keyNotFound keyId)
    | some entry =>
      if entry.tenantId ≠ task.tenantId then
        throw (.permissionDenied ("key:" ++ keyId)
          "key does not belong to the requesting tenant")
      pure (.goOn .needKek)

def readKek : StoreM Next := do
  match (← get).tenantKeks.lookup task.tenantId with
  | some entry => pure (.goOn (.haveKek entry.rawKek))
  | none => pure (.goOn .kekMiss)

def createKek : StoreM Next := do
  let store ← get
  -- another task may have created it since
  match store.tenantKeks.lookup task.tenantId with
  | some entry => pure (.goOn (.haveKek entry.rawKek))
  | none =>
    let rawKek ← MonadExcept.ofExcept (generateRandom32Bytes task.env.kek.key)
    let rootKek ← MonadExcept.ofExcept (Seal.rootKey store.vaultSeal)
    let wrapped ← MonadExcept.ofExcept
      (encryptWithDek aes task.env.kek.nonce rootKek rawKek.val (tenantKekAad task.tenantId))
    modify fun store =>
      store.cacheKek task.tenantId { rawKek := rawKek, wrappedKekB64 := wrapped, version := 1 }
    pure (.goOn (.kekUnsaved rawKek wrapped))

def saveKek (rawKek : Key) (wrapped : String) : StoreM Next := do
  match (← get).dbPool with
  | none => pure ()
  | some db =>
    let _ ← requireUuid "tenant_id" task.tenantId
    let desc : KeyDescriptor :=
      { id := task.env.kek.id, version := 1, purpose := .tenantKek, state := .active,
        tenantId := some task.tenantId }
    persist db task.env.kek desc wrapped "Failed to persist tenant KEK to DB"
  pure (.goOn (.haveKek rawKek))

def createDek (kek : Key) : StoreM Next := do
  let rawDek ← MonadExcept.ofExcept (generateRandom32Bytes task.env.dek.key)
  let keyId := task.env.dek.id.toString
  let wrapped ← MonadExcept.ofExcept
    (encryptWithDek aes task.env.dek.nonce kek rawDek.val (reloadAad keyId))
  modify fun store =>
    store.cacheDek keyId
      { rawDek := rawDek, superseded := [], wrappedDekB64 := wrapped, tenantId := task.tenantId,
        version := 1 }
  pure (.goOn (.dekUnsaved keyId wrapped))

def saveDek : StoreM Next := do
  match (← get).dbPool with
  | none => pure ()
  | some db =>
    let _ ← requireUuid "tenant_id" task.tenantId
    let dekUuid ← requireUuid "Generated key_id" keyId
    let desc : KeyDescriptor :=
      { id := dekUuid, version := 1, purpose := .dataEncryption, state := .active,
        tenantId := some task.tenantId }
    persist db task.env.dek desc wrapped "Failed to persist DEK to DB"
  pure (.goOn (.made keyId))

def replaceDek (kek : Key) : StoreM Next := do
  let newRawDek ← MonadExcept.ofExcept (generateRandom32Bytes task.env.dek.key)
  let wrapped ← MonadExcept.ofExcept
    (encryptWithDek aes task.env.dek.nonce kek newRawDek.val (reloadAad keyId))
  match (← get).deks.lookup keyId with
  | none => throw (.keyNotFound keyId)
  | some entry =>
    let rotated := entry.rotate newRawDek wrapped
    modify fun store => store.cacheDek keyId rotated
    pure (.goOn (.rotated keyId rotated.version wrapped))

def markRotated : StoreM Next := do
  match (← get).dbPool with
  | none => pure ()
  | some db =>
    let keyUuid ← requireUuid "key_id" keyId
    let _ ← requireUuid "tenant_id" task.tenantId
    match updateKeyState db task.env.update keyUuid .rotatingOut with
    | .error e => throw (.internal ("Failed to update old DEK state in DB: " ++ e.display))
    | .ok db => modify fun store => store.setDb db
  pure (.goOn (.marked keyId version wrapped))

def saveRotated : StoreM Next := do
  match (← get).dbPool with
  | none => pure ()
  | some db =>
    let keyUuid ← requireUuid "key_id" keyId
    let desc : KeyDescriptor :=
      { id := keyUuid, version := version, purpose := .dataEncryption, state := .active,
        tenantId := some task.tenantId }
    persist db task.env.dek desc wrapped "Failed to persist rotated DEK to DB"
  pure (.finished (.version version))

def advance : Phase → StoreM Next
  | .start => task.begin
  | .needKek => task.readKek
  | .kekMiss => task.createKek aes
  | .kekUnsaved rawKek wrapped => task.saveKek rawKek wrapped
  | .haveKek kek =>
    match task.goal with
    | .encrypt | .create => task.createDek aes kek
    | .rotate keyId => task.replaceDek aes keyId kek
  | .dekUnsaved keyId wrapped => task.saveDek keyId wrapped
  | .made keyId =>
    match task.goal with
    | .encrypt => do
      let keyId ← installCurrentDek task.tenantId keyId
      pure (.finished (.keyId keyId))
    | _ => pure (.finished (.keyId keyId))
  | .rotated keyId version wrapped => task.markRotated keyId version wrapped
  | .marked keyId version wrapped => task.saveRotated keyId version wrapped

end Task

structure Pool where
  store : KekStore
  tasks : Nat → Option (Task × Phase)

inductive PoolEvent where
  | spawn (i : Nat) (task : Task)
  | resume (i : Nat)

/-- What a step shows: a key drawn for a key id, or a key id handed out for
encryption with the key it stands for at that moment. -/
inductive Output where
  | drew (tenantId keyId : String) (key : Key)
  | handed (tenantId keyId : String) (key : Option Key)
  deriving DecidableEq

namespace Pool

def start (store : KekStore) : Pool where
  store := store
  tasks := fun _ => none

def drawnBy (task : Task) (phase : Phase) : Option Output :=
  match phase, task.goal, task.env.dek.key with
  | .haveKek _, .rotate keyId, .ok key => some (.drew task.tenantId keyId key)
  | .haveKek _, _, .ok key => some (.drew task.tenantId task.env.dek.id.toString key)
  | _, _, _ => none

def handedBy (task : Task) (store : KekStore) (answer : Answer) : Option Output :=
  match task.goal, answer with
  | .encrypt, .keyId keyId =>
    some (.handed task.tenantId keyId ((store.deks.lookup keyId).map DekEntry.rawDek))
  | _, _ => none

variable (aes : Aes256Gcm) (pool : Pool)

def resume (i : Nat) (task : Task) (phase : Phase) : Pool × Option Output :=
  match perform (task.advance aes phase) pool.store with
  | (store, .error _) => ({ store := store, tasks := Function.update pool.tasks i none }, none)
  | (store, .ok (.finished answer)) =>
    ({ store := store, tasks := Function.update pool.tasks i none }, handedBy task store answer)
  | (store, .ok (.goOn next)) =>
    ({ store := store, tasks := Function.update pool.tasks i (some (task, next)) },
      drawnBy task phase)

def step : PoolEvent → Pool × Option Output
  | .spawn i task =>
    match pool.tasks i with
    | some _ => (pool, none)
    | none => ({ pool with tasks := Function.update pool.tasks i (some (task, .start)) }, none)
  | .resume i =>
    match pool.tasks i with
    | some (task, phase) => pool.resume aes i task phase
    | none => (pool, none)

def outputs (events : List PoolEvent) : List Output :=
  (trace (step aes) pool events).filterMap Prod.snd

end Pool

end WslVault.CryptoService
