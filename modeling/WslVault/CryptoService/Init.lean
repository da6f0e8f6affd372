import WslVault.Storage.SealStore

/-!
# Initialising

The handler of `POST /v1/sys/init` (`services/crypto-service/src/sys.rs`). It checks the
request under the seal's read lock, publishes new material under the write lock, stores it,
and only then returns the shares. Other requests run between these steps, on the same
process and on others over the same database (`Cluster`).
-/

namespace WslVault.CryptoService.Sys

open Base Core Storage

structure InitRequest where
  (secretShares secretThreshold : UInt8)
  deriving DecidableEq

def defaultRequest : InitRequest where
  secretShares := 5
  secretThreshold := 3

structure InitResponse where
  keysBase64 : List String
  secretThreshold : UInt8
  warning : String
  deriving DecidableEq

inductive InitBody where
  | keys (response : InitResponse)
  | errors (message : String)
  deriving DecidableEq

structure InitReply where
  status : Nat
  body : InitBody
  deriving DecidableEq

def initWarning : String :=
  "These shares are shown once and cannot be recovered. Distribute them to " ++
    "separate holders and store them apart from this vault and from each other. " ++
    "Losing more than (shares - threshold) of them makes every secret in this " ++
    "vault permanently unreadable."

namespace InitReply

def noDatabase : InitReply where
  status := 412
  body := .errors
    "cannot initialize without DATABASE_URL: the sealed root key has nowhere to live"

def rejected (e : VaultError) : InitReply where
  status := 400
  body := .errors e.display

def notStored (e : VaultError) : InitReply where
  status := 500
  body := .errors
    ("seal configuration could not be stored, vault is NOT initialized: " ++ e.display)

def issued (result : InitResult) : InitReply where
  status := 200
  body := .keys ⟨result.shares, result.threshold, initWarning⟩

end InitReply

/-- `POST /v1/sys/init`, on the seal of a process and the table of its database;
`connected` if it has one. -/
def initHandler (p : Primitives) (connected : Bool) (inner : SealInner)
    (config : Option SealRow) (body : Option InitRequest) (drawn : Seal.InitDraw)
    (delivery : Delivery) : (SealInner × Option SealRow) × InitReply :=
  let req := body.getD defaultRequest
  if connected then
    match Seal.init p inner req.secretShares req.secretThreshold drawn with
    | .error e => ((inner, config), .rejected e)
    | .ok (inner, result, material) =>
      match SealStore.saveInitial config material delivery with
      | (config, .error e) => ((Seal.sealVault inner, config), .notStored e)
      | (config, .ok ()) => ((inner, config), .issued result)
  else ((inner, config), .noDatabase)

inductive Phase where
  | idle
  /-- Its request has passed the checks. -/
  | checked (replica : Nat) (req : InitRequest)
  /-- Its material is in memory and not yet stored. -/
  | published (replica : Nat) (result : InitResult) (material : SealMaterial)
  /-- Its material could not be stored. -/
  | unsaved (replica : Nat) (e : VaultError)

/-- The processes over one database, and the calls they are serving. -/
structure Cluster where
  connected : Nat → Bool
  config : Option SealRow
  seals : Nat → SealInner
  calls : Nat → Phase

inductive Event where
  | request (call replica : Nat) (body : Option InitRequest)
  | publish (call : Nat) (drawn : Seal.InitDraw)
  | save (call : Nat) (delivery : Delivery)
  | respond (call : Nat)
  | unsealShare (replica : Nat) (shareB64 : String)
  | sealVault (replica : Nat)

namespace Cluster

variable (c : Cluster)

def setCall (call : Nat) (phase : Phase) : Cluster :=
  { c with calls := Function.update c.calls call phase }

def setSeal (replica : Nat) (inner : SealInner) : Cluster :=
  { c with seals := Function.update c.seals replica inner }

def request (call replica : Nat) (body : Option InitRequest) : Cluster × Option InitReply :=
  let req := body.getD defaultRequest
  if c.connected replica then
    match Seal.checkInit (c.seals replica) req.secretShares req.secretThreshold with
    | .error e => (c, some (.rejected e))
    | .ok () => (c.setCall call (.checked replica req), none)
  else (c, some .noDatabase)

def publish (p : Primitives) (c : Cluster) (call replica : Nat) (req : InitRequest)
    (drawn : Seal.InitDraw) : Cluster × Option InitReply :=
  match Seal.generate p req.secretShares req.secretThreshold drawn with
  | .error e => (c.setCall call .idle, some (.rejected e))
  | .ok (result, material) =>
    ((c.setSeal replica (Seal.load (c.seals replica) material)).setCall call
      (.published replica result material), none)

def save (c : Cluster) (call replica : Nat) (result : InitResult) (material : SealMaterial)
    (delivery : Delivery) : Cluster × Option InitReply :=
  match SealStore.saveInitial c.config material delivery with
  | (config, .error e) => ({ c with config := config }.setCall call (.unsaved replica e), none)
  | (config, .ok ()) => ({ c with config := config }.setCall call .idle, some (.issued result))

/-- After a failure to store the material the vault is sealed. -/
def respond (c : Cluster) (call replica : Nat) (e : VaultError) : Cluster × Option InitReply :=
  ((c.setSeal replica (Seal.sealVault (c.seals replica))).setCall call .idle, some (.notStored e))

/-- One step of one process, with the reply it sends. An event that does not
belong to the phase its call is in does nothing. -/
def step (p : Primitives) (c : Cluster) : Event → Cluster × Option InitReply
  | .request call replica body =>
    match c.calls call with
    | .idle => c.request call replica body
    | _ => (c, none)
  | .publish call drawn =>
    match c.calls call with
    | .checked replica req => c.publish p call replica req drawn
    | _ => (c, none)
  | .save call delivery =>
    match c.calls call with
    | .published replica result material => c.save call replica result material delivery
    | _ => (c, none)
  | .respond call =>
    match c.calls call with
    | .unsaved replica e => c.respond call replica e
    | _ => (c, none)
  | .unsealShare replica shareB64 =>
    (c.setSeal replica (perform (Seal.unsealShare p shareB64) (c.seals replica)).1, none)
  | .sealVault replica => (c.setSeal replica (Seal.sealVault (c.seals replica)), none)

end Cluster

end WslVault.CryptoService.Sys
