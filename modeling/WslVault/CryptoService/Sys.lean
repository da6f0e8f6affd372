import WslVault.CryptoService.KekStore

/-!
# The seal in the crypto service

The seal handlers of `services/crypto-service/src/sys.rs`, and the vault as a state machine:
the calls of the key store and the operations of the seal, in any order.
-/

namespace WslVault.CryptoService

open Base Core Storage

def onSeal {α : Type} (m : EStateM VaultError SealInner α) : StoreM α := fun store =>
  match m.run store.vaultSeal with
  | .ok a inner => .ok a { store with vaultSeal := inner }
  | .error e inner => .error e { store with vaultSeal := inner }

def modifySeal (f : SealInner → SealInner) : StoreM Unit :=
  modify fun store => { store with vaultSeal := f store.vaultSeal }

namespace Sys

inductive Body where
  | status (status : SealStatus) (warning : Option String)
  | errors (message : String)
  deriving DecidableEq

structure Response where
  status : Nat
  body : Body
  deriving DecidableEq

/-- `POST /v1/sys/seal`, with the operator token the environment asks for and
the one presented. -/
def sealHandler (configured presented : Option String) : StoreM Response := do
  if ∃ expected ∈ configured, expected ≠ "" ∧ presented.getD "" ≠ expected then
    pure ⟨403, .errors "operator token required to seal"⟩
  else
    modifySeal Seal.sealVault
    pure ⟨200, .status (Seal.status (← get).vaultSeal) none⟩

/-- `POST /v1/sys/unseal`. The keys are loaded when the vault opens; a failure
to load them is only reported. -/
def unsealHandler (p : Primitives) (key : String) (kekFault dekFault : Option String) :
    StoreM Response := do
  let wasSealed := !Seal.isUnsealed (← get).vaultSeal
  try
    let status ← onSeal (Seal.unsealShare p key)
    if wasSealed && !status.sealed then
      try
        KekStore.loadFromDb p.aes kekFault dekFault
        pure ⟨200, .status status none⟩
      catch e =>
        pure ⟨200, .status status (some ("unsealed, but key warm-load failed (" ++ e.display ++
          "); keys will be loaded on demand"))⟩
    else pure ⟨200, .status status none⟩
  catch e => pure ⟨400, .errors e.display⟩

end Sys

inductive KeyCall where
  | getOrCreateTenantKek (tenantId : String)
  | currentDekForEncrypt (tenantId : String)
  | generateAndStoreDek (tenantId : String)
  | getDek (keyId tenantId : String)
  | getDekChain (keyId tenantId : String)
  | rotateDek (tenantId keyId : String)

inductive Answer where
  | key (raw : Key)
  | chain (keys : List Key)
  | keyId (id : String)
  | version (version : UInt32)
  | response (response : Sys.Response)
  | done
  deriving DecidableEq

def KeyCall.exec (aes : Aes256Gcm) (env : Env) : KeyCall → StoreM Answer
  | .getOrCreateTenantKek tenantId =>
    .key <$> KekStore.getOrCreateTenantKek aes tenantId env.kek
  | .currentDekForEncrypt tenantId => .keyId <$> KekStore.currentDekForEncrypt aes tenantId env
  | .generateAndStoreDek tenantId => .keyId <$> KekStore.generateAndStoreDek aes tenantId env
  | .getDek keyId tenantId => .key <$> KekStore.getDek aes keyId tenantId env
  | .getDekChain keyId tenantId => .chain <$> KekStore.getDekChain aes keyId tenantId env
  | .rotateDek tenantId keyId => .version <$> KekStore.rotateDek aes tenantId keyId env

inductive Op where
  | keyCall (call : KeyCall) (env : Env)
  | loadFromDb (kekFault dekFault : Option String)
  | load (material : SealMaterial)
  | unsealWithRootKey (rootKey : Key)
  | init (shares threshold : UInt8) (drawn : Seal.InitDraw)
  | unsealShare (shareB64 : String)
  | sealVault
  | resetUnsealProgress
  | sealRequest (configured presented : Option String)
  | unsealRequest (key : String) (kekFault dekFault : Option String)

def Op.exec (p : Primitives) : Op → StoreM Answer
  | .keyCall call env => call.exec p.aes env
  | .loadFromDb kekFault dekFault => do
    KekStore.loadFromDb p.aes kekFault dekFault
    pure .done
  | .load material => do
    modifySeal fun inner => Seal.load inner material
    pure .done
  | .unsealWithRootKey rootKey => do
    modifySeal fun inner => Seal.unsealWithRootKey inner rootKey
    pure .done
  | .init shares threshold drawn => onSeal do
    let (inner, _, _) ← MonadExcept.ofExcept (Seal.init p (← get) shares threshold drawn)
    set inner
    pure .done
  | .unsealShare shareB64 => onSeal do
    let _ ← Seal.unsealShare p shareB64
    pure .done
  | .sealVault => do
    modifySeal Seal.sealVault
    pure .done
  | .resetUnsealProgress => do
    modifySeal Seal.resetUnsealProgress
    pure .done
  | .sealRequest configured presented => .response <$> Sys.sealHandler configured presented
  | .unsealRequest key kekFault dekFault =>
    .response <$> Sys.unsealHandler p key kekFault dekFault

def KekStore.step (p : Primitives) (store : KekStore) (op : Op) :
    KekStore × Except VaultError Answer :=
  perform (op.exec p) store

end WslVault.CryptoService
