import Mathlib.Data.List.AList
import WslVault.Core.Seal
import WslVault.Storage.KeyStore

/-!
# The key hierarchy

`KekStore` of the crypto service (`services/crypto-service/src/kek_store.rs`): the root key
wraps one key encryption key (KEK) per tenant, and a tenant's KEK wraps its data encryption
keys (DEKs). Unwrapped keys are in memory, wrapped ones also in the database, if there is
one.

A call that fails keeps what it has written before (`StoreM`). Calls run one after another,
so the second look into a map under its write lock sees what the first saw. Random bytes,
new ids, the clock and the failures of database calls are arguments. The replication event
of a new DEK, whose failure is only logged, is left out, and so is the text that a library
adds to an error.
-/

namespace WslVault.CryptoService

open Core Storage Storage.KeyStore

def dekMaxOperations : UInt64 := 100000

def warmLoadDekLimit : Nat := 10000

structure TenantKekEntry where
  rawKek : Key
  wrappedKekB64 : String
  version : UInt32
  deriving DecidableEq

structure CurrentDek where
  keyId : String
  operations : UInt64
  deriving DecidableEq

structure DekEntry where
  rawDek : Key
  /-- Keys this DEK has been rotated away from, oldest first. -/
  superseded : List Key
  (wrappedDekB64 tenantId : String)
  version : UInt32
  deriving DecidableEq

def DekEntry.rotate (entry : DekEntry) (rawDek : Key) (wrapped : String) : DekEntry :=
  { entry with
    superseded := entry.superseded ++ [entry.rawDek]
    rawDek := rawDek
    wrappedDekB64 := wrapped
    version := entry.version + 1 }

structure KekStore where
  vaultSeal : SealInner
  tenantKeks : AList (fun _ : String => TenantKekEntry)
  deks : AList (fun _ : String => DekEntry)
  currentDek : AList (fun _ : String => CurrentDek)
  /-- The database behind the pool; none in ephemeral mode. -/
  dbPool : Option KeyDb

/-- What one new key takes from outside the store: random bytes, a fresh id,
the time of its row, and the error of its `INSERT`. -/
structure Draw where
  key : Except String Key
  nonce : Option Nonce
  id : Uuid
  now : Timestamp
  fault : Option String

/-- What one call takes from outside the store: a tenant KEK and a DEK, if it
comes to that, and the errors of its `SELECT` and `UPDATE`. -/
structure Env where
  (kek dek : Draw)
  (select update : Option String)

def Env.idle : Env :=
  let drawn : Draw := { key := .error "", nonce := none, id := .nil, now := 0, fault := none }
  { kek := drawn, dek := drawn, select := none, update := none }

def Draw.repeated (b : UInt8) (id : Uuid) : Draw where
  key := .ok (.repeated 32 b)
  nonce := some (.repeated 12 b)
  id := id
  now := 0
  fault := none

def Env.repeated (b : UInt8) (kekId dekId : Uuid) : Env where
  kek := .repeated b kekId
  dek := .repeated b dekId
  select := none
  update := none

abbrev StoreM := EStateM VaultError KekStore

namespace KekStore

def withSeal (vaultSeal : SealInner) (dbPool : Option KeyDb) : KekStore where
  vaultSeal := vaultSeal
  tenantKeks := ∅
  deks := ∅
  currentDek := ∅
  dbPool := dbPool

variable (store : KekStore)

def cacheKek (tenantId : String) (entry : TenantKekEntry) : KekStore :=
  { store with tenantKeks := store.tenantKeks.insert tenantId entry }

def cacheDek (keyId : String) (entry : DekEntry) : KekStore :=
  { store with deks := store.deks.insert keyId entry }

def setCurrentDek (tenantId : String) (entry : CurrentDek) : KekStore :=
  { store with currentDek := store.currentDek.insert tenantId entry }

def setDb (db : KeyDb) : KekStore := { store with dbPool := some db }

def tenantKekAad (tenantId : String) : Bytes := asBytes ("tenant-kek:" ++ tenantId)

def reloadAad (keyId : String) : Bytes := asBytes ("dek:reload:" ++ keyId)

def transportAad (keyId : String) : Bytes := asBytes ("dek:transport:" ++ keyId)

def generateRandom32Bytes (drawn : Except String Key) : Except VaultError Key :=
  drawn.mapError fun e => .encryptionFailed ("CSPRNG key generation failed: " ++ e)

section

variable (aes : Aes256Gcm) (keyId : String) (rootKek : Key) (tenantKek : Key)
  (keks : AList (fun _ : String => TenantKekEntry))

def unwrapTenantKek (tenantId wrappedKekB64 : String) : Option Key :=
  match decryptWithDek aes rootKek wrappedKekB64 (tenantKekAad tenantId) with
  | .error _ => none
  | .ok plaintext => Block.ofSlice 32 plaintext

/-- `transport_unwrap_dek`: a DEK that a peer wrapped under the shared root key. -/
def transportUnwrapDek (rootKek : Except VaultError Key) (wrappedB64 keyId : String) :
    Except VaultError Bytes := do
  decryptWithDek aes (← rootKek) wrappedB64 (transportAad keyId)

/-- A DEK from its wrapped form: under the tenant's KEK, or else as a peer sent
it. -/
def unwrapDek (rootKek : Except VaultError Key) (keyId wrappedB64 : String) : Option Key :=
  match decryptWithDek aes tenantKek wrappedB64 (reloadAad keyId) with
  | .ok plaintext => Block.ofSlice 32 plaintext
  | .error _ =>
    match transportUnwrapDek aes rootKek wrappedB64 keyId with
    | .ok plaintext => Block.ofSlice 32 plaintext
    | .error _ => none

def loadTenantKek (row : PersistedKeyEntry) : AList (fun _ : String => TenantKekEntry) :=
  match row.tenantId with
  | none => keks
  | some tenantId =>
    match unwrapTenantKek aes rootKek tenantId row.wrappedKey with
    | none => keks
    | some rawKek =>
      keks.insert tenantId
        { rawKek := rawKek, wrappedKekB64 := row.wrappedKey, version := row.version }

/-- Rows come oldest version first, so a key id seen before is a superseded
version of this one. -/
def loadDek (deks : AList (fun _ : String => DekEntry)) (row : PersistedKeyEntry) :
    AList (fun _ : String => DekEntry) :=
  match row.tenantId with
  | none => deks
  | some tenantId =>
    match keks.lookup tenantId with
    | none => deks
    | some kek =>
      match unwrapDek aes kek.rawKek (.ok rootKek) row.keyId row.wrappedKey with
      | none => deks
      | some rawDek =>
        match deks.lookup row.keyId with
        | some existing =>
          deks.insert row.keyId
            { existing with
              superseded := existing.superseded ++ [existing.rawDek]
              rawDek := rawDek
              wrappedDekB64 := row.wrappedKey
              version := row.version }
        | none =>
          deks.insert row.keyId
            { rawDek := rawDek, superseded := [], wrappedDekB64 := row.wrappedKey,
              tenantId := tenantId, version := row.version }

def loadFromDb (kekFault dekFault : Option String) : StoreM Unit := do
  let store ← get
  match store.dbPool with
  | none => pure ()
  | some db =>
    let rootKek ← MonadExcept.ofExcept (Seal.rootKey store.vaultSeal)
    let tenantKekRows ← MonadExcept.ofExcept (listActiveKeysWithWrappedKey db kekFault .tenantKek)
    let keks := tenantKekRows.foldl (loadTenantKek aes rootKek) store.tenantKeks
    modify fun store => { store with tenantKeks := keks }
    let dekRows ← MonadExcept.ofExcept
      (listRecentLoadableKeys db dekFault .dataEncryption (some warmLoadDekLimit))
    modify fun store => { store with deks := dekRows.foldl (loadDek aes rootKek keks) store.deks }

/-- `Uuid::parse_str(text).map_err(…)?`. -/
def requireUuid (field text : String) : StoreM Uuid :=
  match Uuid.parseStr text with
  | some uuid => pure uuid
  | none => throw (.internal (field ++ " is not a valid UUID"))

/-- `insert_key_descriptor(…).await.map_err(…)?`. -/
def persist (db : KeyDb) (drawn : Draw) (desc : KeyDescriptor) (wrapped failure : String) :
    StoreM Unit :=
  match insertKeyDescriptor db drawn.fault drawn.now desc wrapped with
  | .error e => throw (.internal (failure ++ ": " ++ e.display))
  | .ok db => modify fun store => store.setDb db

def getOrCreateTenantKek (tenantId : String) (drawn : Draw) : StoreM Key := do
  let store ← get
  match store.tenantKeks.lookup tenantId with
  | some entry => pure entry.rawKek
  | none =>
    let rawKek ← MonadExcept.ofExcept (generateRandom32Bytes drawn.key)
    let rootKek ← MonadExcept.ofExcept (Seal.rootKey store.vaultSeal)
    let wrapped ← MonadExcept.ofExcept
      (encryptWithDek aes drawn.nonce rootKek rawKek.val (tenantKekAad tenantId))
    -- in memory before it is in the database
    modify fun store =>
      store.cacheKek tenantId { rawKek := rawKek, wrappedKekB64 := wrapped, version := 1 }
    match store.dbPool with
    | none => pure ()
    | some db =>
      let _ ← requireUuid "tenant_id" tenantId
      let desc : KeyDescriptor :=
        { id := drawn.id, version := 1, purpose := .tenantKek, state := .active,
          tenantId := some tenantId }
      persist db drawn desc wrapped "Failed to persist tenant KEK to DB"
    pure rawKek

/-- The part of `generate_and_store_dek` after the tenant's KEK. -/
def storeDek (tenantId : String) (tenantKek : Key) (drawn : Draw) : StoreM String := do
  let rawDek ← MonadExcept.ofExcept (generateRandom32Bytes drawn.key)
  let keyId := drawn.id.toString
  let wrapped ← MonadExcept.ofExcept
    (encryptWithDek aes drawn.nonce tenantKek rawDek.val (reloadAad keyId))
  modify fun store =>
    store.cacheDek keyId
      { rawDek := rawDek, superseded := [], wrappedDekB64 := wrapped, tenantId := tenantId,
        version := 1 }
  let store ← get
  match store.dbPool with
  | none => pure ()
  | some db =>
    let _ ← requireUuid "tenant_id" tenantId
    let dekUuid ← requireUuid "Generated key_id" keyId
    let desc : KeyDescriptor :=
      { id := dekUuid, version := 1, purpose := .dataEncryption, state := .active,
        tenantId := some tenantId }
    persist db drawn desc wrapped "Failed to persist DEK to DB"
  pure keyId

def generateAndStoreDek (tenantId : String) (env : Env) : StoreM String := do
  let tenantKek ← getOrCreateTenantKek aes tenantId env.kek
  storeDek aes tenantId tenantKek env.dek

/-- The critical section of `current_dek_for_encrypt` before a key is minted:
use the current DEK if it has operations left. -/
def useCurrentDek (tenantId : String) : StoreM (Option String) := do
  let store ← get
  match store.currentDek.lookup tenantId with
  | none => pure none
  | some entry =>
    if entry.operations < dekMaxOperations then
      modify fun store =>
        store.setCurrentDek tenantId { entry with operations := entry.operations + 1 }
      pure (some entry.keyId)
    else pure none

/-- The critical section after it: install the new key, unless another caller
has installed one. -/
def installCurrentDek (tenantId keyId : String) : StoreM String := do
  match ← useCurrentDek tenantId with
  | some installed => pure installed
  | none =>
    modify fun store => store.setCurrentDek tenantId { keyId := keyId, operations := 1 }
    pure keyId

def currentDekForEncrypt (tenantId : String) (env : Env) : StoreM String := do
  match ← useCurrentDek tenantId with
  | some keyId => pure keyId
  | none =>
    let keyId ← generateAndStoreDek aes tenantId env
    installCurrentDek tenantId keyId

def unwrapVersions (rootKek : Except VaultError Key)
    (rows : List PersistedKeyEntry) : List (UInt32 × Key × String) :=
  rows.filterMap fun row =>
    (unwrapDek aes tenantKek rootKek row.keyId row.wrappedKey).map fun raw =>
      (row.version, raw, row.wrappedKey)

def hydrateDek (env : Env) : StoreM Bool := do
  let store ← get
  match store.dbPool, Uuid.parseStr keyId with
  | some db, some uuid =>
    let rows ← MonadExcept.ofExcept (getKeyVersionsWithWrappedKey db env.select uuid)
    match rows.head?.bind PersistedKeyEntry.tenantId with
    | none => pure false
    | some tenantId =>
      let tenantKek ← getOrCreateTenantKek aes tenantId env.kek
      let versions := unwrapVersions aes tenantKek (Seal.rootKey store.vaultSeal) rows
      match versions.getLast? with
      | none => pure false
      | some (version, rawDek, wrapped) =>
        modify fun store =>
          store.cacheDek keyId
            { rawDek := rawDek, superseded := versions.dropLast.map fun v => v.2.1,
              wrappedDekB64 := wrapped, tenantId := tenantId, version := version }
        pure true
  | _, _ => pure false

def lookupDek (tenantId : String) : StoreM DekEntry := do
  match (← get).deks.lookup keyId with
  | none => throw (.keyNotFound keyId)
  | some entry =>
    -- another tenant's key is reported as missing
    if entry.tenantId ≠ tenantId then throw (.keyNotFound keyId)
    pure entry

def ownedDek (tenantId : String) (env : Env) : StoreM DekEntry := do
  if (← get).deks.lookup keyId = none then
    let _ ← hydrateDek aes keyId env
  lookupDek keyId tenantId

def getDek (tenantId : String) (env : Env) : StoreM Key := do
  let entry ← ownedDek aes keyId tenantId env
  pure entry.rawDek

/-- Every key this DEK can decrypt with, newest first. -/
def getDekChain (tenantId : String) (env : Env) : StoreM (List Key) := do
  let entry ← ownedDek aes keyId tenantId env
  pure (entry.rawDek :: entry.superseded.reverse)

/-- `rotate_dek`. The old row is marked before the new one goes in; both have the
same id. -/
def rotateDek (tenantId keyId : String) (env : Env) : StoreM UInt32 := do
  match (← get).deks.lookup keyId with
  | none => throw (.keyNotFound keyId)
  | some entry =>
    if entry.tenantId ≠ tenantId then
      throw (.permissionDenied ("key:" ++ keyId) "key does not belong to the requesting tenant")
    let tenantKek ← getOrCreateTenantKek aes tenantId env.kek
    let newRawDek ← MonadExcept.ofExcept (generateRandom32Bytes env.dek.key)
    let wrapped ← MonadExcept.ofExcept
      (encryptWithDek aes env.dek.nonce tenantKek newRawDek.val (reloadAad keyId))
    -- the entry is still the one found above
    let rotated := entry.rotate newRawDek wrapped
    modify fun store => store.cacheDek keyId rotated
    let store ← get
    match store.dbPool with
    | none => pure ()
    | some db =>
      let keyUuid ← requireUuid "key_id" keyId
      let _ ← requireUuid "tenant_id" tenantId
      match updateKeyState db env.update keyUuid .rotatingOut with
      | .error e => throw (.internal ("Failed to update old DEK state in DB: " ++ e.display))
      | .ok db =>
        modify fun store => store.setDb db
        let desc : KeyDescriptor :=
          { id := keyUuid, version := rotated.version, purpose := .dataEncryption,
            state := .active, tenantId := some tenantId }
        persist db env.dek desc wrapped "Failed to persist rotated DEK to DB"
    pure rotated.version

end

/-- The wrapped DEK and its version, from memory only. -/
def getDekMetadata (keyId tenantId : String) : Except VaultError (String × UInt32) :=
  match store.deks.lookup keyId with
  | none => .error (.keyNotFound keyId)
  | some entry =>
    if entry.tenantId ≠ tenantId then .error (.keyNotFound keyId)
    else .ok (entry.wrappedDekB64, entry.version)

def getDekVersionUnscoped (keyId : String) : Except VaultError UInt32 :=
  match store.deks.lookup keyId with
  | none => .error (.keyNotFound keyId)
  | some entry => .ok entry.version

end KekStore

end WslVault.CryptoService
