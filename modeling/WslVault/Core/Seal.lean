import WslVault.Base.Stateful
import WslVault.Core.Crypto
import WslVault.Core.Text

/-!
# The seal

Custody of the root key (`crates/wslvault-core/src/seal.rs`): stored encrypted under the
unseal key, which exists as shares. Secret sharing and key derivation are parameters. Random
bytes are arguments of the call that draws them, `none` where the generator failed.
-/

namespace WslVault.Core

open Base

structure Sharks where
  Share : Type
  /-- `Share::try_from`, with the text of its error. -/
  tryFrom : Bytes → Except String Share
  /-- `Vec::from`. -/
  toVec : Share → Bytes
  /-- The shares of a secret, for the coefficients drawn. -/
  dealer : (threshold : UInt8) → (secret : Bytes) → (coefficients : Bytes) → Nat → Share
  recover : (threshold : UInt8) → List Share → Except String Bytes

/-- The primitives the services take from their libraries. -/
structure Primitives where
  aes : Aes256Gcm
  sharks : Sharks
  /-- `derive_key` without a salt. -/
  deriveKey : (ikm : Key) → (info : Bytes) → Except VaultError Key

/-- Primitives to evaluate runs with: a share is the secret itself. -/
def Primitives.transparent : Primitives where
  aes := .transparent
  sharks :=
    { Share := Bytes
      tryFrom := .ok
      toVec := id
      dealer := fun _ secret _ _ => secret
      recover := fun _ shares => (shares.head?.map Except.ok).getD (.error "no shares") }
  deriveKey := fun ikm _ => .ok ikm

structure InitResult where
  shares : List String
  threshold : UInt8

structure SealMaterial where
  (shares threshold : UInt8)
  (sealedRootKey unsealKeyCheck : String)
  deriving DecidableEq

structure SealStatus where
  (sealed initialized : Bool)
  (threshold shares progress : UInt8)
  deriving DecidableEq

structure SealInner where
  material : Option SealMaterial
  rootKey : Option Key
  /-- Shares supplied so far in the current unseal attempt. -/
  pending : List Bytes
  deriving DecidableEq

namespace Seal

def sealAad : Bytes := asBytes "wslvault:seal:root-key:v1"

def checkInfo : Bytes := asBytes "wslvault:seal:unseal-key-check:v1"

def hexDigit (n : Nat) : Char := if n < 10 then Char.ofNat (n + 48) else Char.ofNat (n + 87)

def hexEncode (bytes : Bytes) : String :=
  String.ofList (bytes.flatMap fun b => [hexDigit (b.toNat / 16), hexDigit (b.toNat % 16)])

def new : SealInner where
  material := none
  rootKey := none
  pending := []

def load (inner : SealInner) (material : SealMaterial) : SealInner :=
  { inner with material := some material, rootKey := none, pending := [] }

variable (inner : SealInner)

def unsealWithRootKey (rootKey : Key) : SealInner :=
  { inner with rootKey := some rootKey, pending := [] }

def statusOf (material : Option SealMaterial) : SealStatus where
  sealed := inner.rootKey.isNone
  initialized := material.isSome
  threshold := (material.map SealMaterial.threshold).getD 0
  shares := (material.map SealMaterial.shares).getD 0
  progress := .ofNat inner.pending.length

def random32 (drawn : Option Key) : Except VaultError Key :=
  match drawn with
  | some key => .ok key
  | none => .error (.encryptionFailed "CSPRNG failed while generating seal key material")

variable (p : Primitives)

def checkValue (unsealKey : Key) : Except VaultError String := do
  let derived ← p.deriveKey unsealKey checkInfo
  return hexEncode derived.val

/-- What `init` draws: the two keys, the nonce and the coefficients of the
sharing. -/
structure InitDraw where
  (rootKey unsealKey : Option Key)
  nonce : Option Nonce
  coefficients : Bytes

/-- The checks of `init`, which takes the lock for reading. -/
def checkInit (shares threshold : UInt8) : Except VaultError Unit :=
  if threshold = 0 ∨ shares = 0 then
    .error (.validationError "threshold" "shares and threshold must both be at least 1")
  else if threshold > shares then
    .error (.validationError "threshold"
      ("threshold " ++ toString threshold ++ " exceeds shares " ++ toString shares))
  else if inner.material.isSome then
    .error (.validationError "seal" ("vault is already initialized; re-initialising would " ++
      "orphan every key encrypted under the current root key"))
  else .ok ()

def generate (shares threshold : UInt8) (drawn : InitDraw) :
    Except VaultError (InitResult × SealMaterial) := do
  let rootKey ← random32 drawn.rootKey
  let unsealKey ← random32 drawn.unsealKey
  let sealedRootKey ← encryptWithDek p.aes drawn.nonce unsealKey rootKey.val sealAad
  let unsealKeyCheck ← checkValue p unsealKey
  let dealt := p.sharks.dealer threshold unsealKey.val drawn.coefficients
  let shareStrings := (List.range shares.toNat).map fun i =>
    Base64.encode (p.sharks.toVec (dealt i))
  return ({ shares := shareStrings, threshold := threshold },
    { shares := shares, threshold := threshold, sealedRootKey := sealedRootKey,
      unsealKeyCheck := unsealKeyCheck })

/-- Other calls may run between the checks and the publication, which takes the lock for
writing. -/
def init (inner : SealInner) (shares threshold : UInt8) (drawn : InitDraw) :
    Except VaultError (SealInner × InitResult × SealMaterial) := do
  checkInit inner shares threshold
  let (result, material) ← generate p shares threshold drawn
  -- still sealed: an operator has to show that the shares open the vault
  return ({ inner with material := some material, rootKey := none, pending := [] }, result,
    material)

/-- The root key under an unseal key put together again, if it is the right
one. A wrong share set empties the attempt, a failed decryption does not. -/
def openWith (material : SealMaterial) (recovered : Bytes) : EStateM VaultError SealInner Key := do
  match Block.ofSlice 32 recovered with
  | none =>
    modify fun inner => { inner with pending := [] }
    throw (.validationError "share" "reconstructed unseal key has the wrong length")
  | some unsealKey =>
    let check ← MonadExcept.ofExcept (checkValue p unsealKey)
    if check ≠ material.unsealKeyCheck then
      modify fun inner => { inner with pending := [] }
      throw (.validationError "share"
        "the supplied shares do not reconstruct this vault's unseal key")
    match decryptWithDek p.aes unsealKey material.sealedRootKey sealAad with
    | .error _ =>
      throw (.internal ("sealed root key failed to decrypt under a verified unseal key; " ++
        "the stored material is corrupt"))
    | .ok plaintext =>
      match Block.ofSlice 32 plaintext with
      | none => throw (.internal "unsealed root key has the wrong length")
      | some rootKey => pure rootKey

/-- `unseal`: submit one share. The text that the codec adds to its error is not
modelled. -/
def unsealShare (shareB64 : String) : EStateM VaultError SealInner SealStatus := do
  let inner ← get
  match inner.material with
  | none => throw (.validationError "seal" "vault is not initialized")
  | some material =>
    if inner.rootKey.isSome then return statusOf inner (some material)
    match Base64.decode (Text.trim shareB64) with
    | none => throw (.validationError "share" "share is not valid base64")
    | some raw =>
      if let .error e := p.sharks.tryFrom raw then
        throw (.validationError "share" ("share is malformed: " ++ e))
      -- a share supplied twice counts once
      if raw ∈ inner.pending then return statusOf inner (some material)
      let pending := inner.pending ++ [raw]
      set { inner with pending := pending }
      if UInt8.ofNat pending.length < material.threshold then
        return statusOf { inner with pending := pending } (some material)
      let shares := pending.filterMap fun r => (p.sharks.tryFrom r).toOption
      match p.sharks.recover material.threshold shares with
      | .error e =>
        throw (.validationError "share" ("could not reconstruct the unseal key: " ++ e))
      | .ok recovered =>
        let rootKey ← openWith p material recovered
        let opened := { inner with rootKey := some rootKey, pending := [] }
        set opened
        return statusOf opened (some material)

def sealVault : SealInner := { inner with rootKey := none, pending := [] }

def resetUnsealProgress : SealInner := { inner with pending := [] }

def status : SealStatus := statusOf inner inner.material

def isUnsealed : Bool := inner.rootKey.isSome

def rootKey : Except VaultError Key :=
  match inner.rootKey with
  | some key => .ok key
  | none => .error .sealed

inductive Call where
  | unsealShare (shareB64 : String)
  | resetUnsealProgress
  | sealVault
  | reload
  deriving DecidableEq

def step (stored : SealMaterial) (inner : SealInner) :
    Call → SealInner × Except VaultError SealStatus
  | .unsealShare shareB64 => perform (Seal.unsealShare p shareB64) inner
  | .resetUnsealProgress => (resetUnsealProgress inner, .ok (status (resetUnsealProgress inner)))
  | .sealVault => (sealVault inner, .ok (status (sealVault inner)))
  | .reload => (load inner stored, .ok (status (load inner stored)))

end Seal

end WslVault.Core
