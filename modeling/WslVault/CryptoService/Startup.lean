import WslVault.CryptoService.Init
import WslVault.CryptoService.Sys

/-!
# Start-up and custody of the root key

How the crypto service comes to its root key (`services/crypto-service/src/main.rs` and
`root_key.rs`, built without the `aws-kms` feature): stored seal material is loaded and the
vault starts sealed; without any, the key in the environment opens it.
-/

namespace WslVault.CryptoService

open Base Core Storage

/-- `RootKeyError`, without the text that the codec adds. -/
inductive RootKeyError where
  | envVarMissing
  | invalidBase64
  | invalidLength (length : Nat)
  | awsKmsFeatureNotEnabled
  | unknownProvider (name : String)
  deriving DecidableEq

def RootKeyError.message : RootKeyError → String
  | .envVarMissing => "VAULT_ROOT_KEY environment variable is not set"
  | .invalidBase64 => "VAULT_ROOT_KEY is not valid base64"
  | .invalidLength length => "root key must be exactly 32 bytes, got " ++ toString length
  | .awsKmsFeatureNotEnabled =>
    "VAULT_ROOT_KEY_PROVIDER=aws-kms was requested but the `aws-kms` feature is not enabled. " ++
      "Rebuild crypto-service with --features aws-kms."
  | .unknownProvider name =>
    "unknown root key provider " ++ debugStr name ++ "; valid values: env, aws-kms"

/-- The environment variables read at start-up, apart from the address of the
database. -/
structure Vars where
  (vaultRootKeyProvider vaultRootKey : Option String)

def loadKeyFromEnvVar (value : Option String) : Except RootKeyError Key :=
  match value with
  | none => .error .envVarMissing
  | some encoded =>
    match Base64.decode (Text.trim encoded) with
    | none => .error .invalidBase64
    | some rawBytes =>
      match Block.ofSlice 32 rawBytes with
      | none => .error (.invalidLength rawBytes.length)
      | some key => .ok key

variable (vars : Vars)

/-- `select_provider`, and what the selected provider loads. -/
def selectProvider : Except RootKeyError (Except RootKeyError Key) :=
  match Text.toLowercase (Text.trim (vars.vaultRootKeyProvider.getD "env")) with
  | "env" => .ok (loadKeyFromEnvVar vars.vaultRootKey)
  | "aws-kms" => .error .awsKmsFeatureNotEnabled
  | other => .error (.unknownProvider other)

structure StartFaults where
  (connect sealConfig keks deks : Option String)

def StartFaults.none : StartFaults := ⟨.none, .none, .none, .none⟩

def sealFromProvider (hasDatabase : Bool) : Except String SealInner :=
  match selectProvider vars with
  | .error e => .error ("Failed to select root key provider: " ++ e.message)
  | .ok (.ok rootKek) => .ok (Seal.unsealWithRootKey Seal.new rootKek)
  | .ok (.error e) =>
    if hasDatabase then .ok Seal.new
    else .error ("no root key available and no DATABASE_URL to initialize a seal against: " ++
      e.message)

def startSeal (hasDatabase : Bool) (config : Option SealRow)
    (fault : Option String) : Except String SealInner :=
  if hasDatabase then
    match SealStore.load config fault with
    | .error e => .error ("Failed to read seal configuration: " ++ e.display)
    | .ok (some material) => .ok (Seal.load Seal.new material)
    | .ok none => sealFromProvider vars true
  else sealFromProvider vars false

/-- `run_service` up to the point where requests are served. -/
def startUp (aes : Aes256Gcm) (vars : Vars) (dbPool : Option KeyDb) (config : Option SealRow)
    (faults : StartFaults) : Except String KekStore :=
  match dbPool, faults.connect with
  | some _, some reason => .error ("Failed to connect to database: " ++ reason)
  | _, _ =>
    match startSeal vars dbPool.isSome config faults.sealConfig with
    | .error e => .error e
    | .ok inner =>
      if Seal.isUnsealed inner then
        match perform (KekStore.loadFromDb aes faults.keks faults.deks)
            (KekStore.withSeal inner dbPool) with
        | (_, .error e) => .error ("Failed to load keys from database: " ++ e.display)
        | (store, .ok ()) => .ok store
      else .ok (KekStore.withSeal inner dbPool)

/-- The process, if it is running, and what outlives it. -/
structure Service where
  vars : Vars
  config : Option SealRow
  running : Bool
  store : KekStore

def Service.installed (vars : Vars) (dbPool : Option KeyDb) : Service where
  vars := vars
  config := none
  running := false
  store := KekStore.withSeal Seal.new dbPool

namespace Service

inductive Request where
  | keyCall (call : KeyCall) (env : Env)
  | sealRequest (configured presented : Option String)
  | unsealRequest (key : String) (kekFault dekFault : Option String)
  | initRequest (body : Option Sys.InitRequest) (drawn : Seal.InitDraw) (delivery : Delivery)
  | restart (faults : StartFaults)

inductive Reply where
  | answer (answer : Except VaultError Answer)
  | init (reply : Sys.InitReply)
  | started
  | exited (message : String)
  | unavailable

variable (p : Primitives) (s : Service)

def serve (op : Op) : Service × Reply :=
  if s.running then
    ({ s with store := (KekStore.step p s.store op).1 }, .answer (KekStore.step p s.store op).2)
  else (s, .unavailable)

def restart (faults : StartFaults) : Service × Reply :=
  match startUp p.aes s.vars s.store.dbPool s.config faults with
  | .ok store => ({ s with running := true, store := store }, .started)
  | .error message =>
    ({ s with running := false, store := KekStore.withSeal Seal.new s.store.dbPool },
      .exited message)

def initVault (body : Option Sys.InitRequest)
    (drawn : Seal.InitDraw) (delivery : Delivery) : Service × Reply :=
  if s.running then
    let ((inner, config), reply) :=
      Sys.initHandler p s.store.dbPool.isSome s.store.vaultSeal s.config body drawn delivery
    ({ s with config := config, store := { s.store with vaultSeal := inner } }, .init reply)
  else (s, .unavailable)

def step : Request → Service × Reply
  | .keyCall call env => s.serve p (.keyCall call env)
  | .sealRequest configured presented => s.serve p (.sealRequest configured presented)
  | .unsealRequest key kekFault dekFault => s.serve p (.unsealRequest key kekFault dekFault)
  | .initRequest body drawn delivery => s.initVault p body drawn delivery
  | .restart faults => s.restart p faults

end Service

end WslVault.CryptoService
