import WslVault.Base.Table
import WslVault.Core.Types
import WslVault.Core.Uuid

/-!
# The second factor

The tables `shared.mfa_totp` and `shared.mfa_recovery_codes` (`026_mfa_totp.sql`) and the
statements of `crates/wslvault-storage/src/mfa_store.rs`. A statement that may match no row
is `none` where it matches none, or refuses.
-/

namespace WslVault.Storage

open Core Base

structure TotpEnrolment where
  (apiKeyId tenantId : Uuid)
  wrappedSecret : String
  /-- The highest step that was accepted. -/
  lastUsedStep : Int
  confirmedAt : Option Timestamp
  deriving DecidableEq

def TotpEnrolment.isActive (e : TotpEnrolment) : Bool := e.confirmedAt.isSome

structure RecoveryCode where
  (apiKeyId tenantId : Uuid)
  codeHash : String
  usedAt : Option Timestamp
  deriving DecidableEq

/-- Both tables. A key has one enrolment, and a recovery code is its key's once. -/
structure MfaTables where
  totp : Table TotpEnrolment TotpEnrolment.apiKeyId
  codes : Table RecoveryCode fun c => (c.apiKeyId, c.codeHash)

namespace MfaStore

variable (t : MfaTables) (apiKeyId : Uuid) (codeHashes : List String)

def find : Option TotpEnrolment := t.totp.get? apiKeyId

/-- A confirmed enrolment is not replaced. -/
def upsertPending (tenantId : Uuid) (wrappedSecret : String) : Option MfaTables :=
  match t.totp.get? apiKeyId with
  | none =>
    (t.totp.insert? ⟨apiKeyId, tenantId, wrappedSecret, 0, none⟩).map fun totp =>
      { t with totp := totp }
  | some e =>
    if e.isActive then none
    else
      some { t with
        totp := t.totp.update (fun e => e.apiKeyId == apiKeyId)
          (fun e => { e with
            wrappedSecret := wrappedSecret
            lastUsedStep := 0
            confirmedAt := none }) fun _ => rfl }

/-- The first statement of `confirm`. What was recorded before does not matter. -/
def confirm (now : Timestamp) (apiKeyId : Uuid) (step : Int) : MfaTables :=
  { t with
    totp := t.totp.update (fun e => e.apiKeyId == apiKeyId)
      (fun e => { e with confirmedAt := some now, lastUsedStep := step }) fun _ => rfl }

/-- The condition of `try_consume_step`. -/
def isFresh (step : Int) (e : TotpEnrolment) : Bool :=
  e.apiKeyId == apiKeyId && e.lastUsedStep < step

def stepFresh (step : Int) : Bool :=
  t.totp.rows.any (isFresh apiKeyId step)

def tryConsumeStep (step : Int) : MfaTables :=
  { t with
    totp := t.totp.update (isFresh apiKeyId step) (fun e => { e with lastUsedStep := step })
      fun _ => rfl }

/-- The condition of `consume_recovery_code`. -/
def isUnused (c : RecoveryCode) : Bool :=
  c.apiKeyId == apiKeyId && codeHashes.contains c.codeHash && c.usedAt.isNone

def codeUnused : Bool :=
  t.codes.rows.any (isUnused apiKeyId codeHashes)

def consumeRecoveryCode (now : Timestamp) (apiKeyId : Uuid)
    (codeHashes : List String) : MfaTables :=
  { t with
    codes := t.codes.update (isUnused apiKeyId codeHashes)
      (fun c => { c with usedAt := some now }) fun _ => rfl }

/-- The insertions of `replace_recovery_codes`, one code after the other. -/
def insertCodes (codes : Table RecoveryCode fun c => (c.apiKeyId, c.codeHash))
    (apiKeyId tenantId : Uuid) :
    List String → Option (Table RecoveryCode fun c => (c.apiKeyId, c.codeHash))
  | [] => some codes
  | hash :: hashes =>
    match codes.insert? ⟨apiKeyId, tenantId, hash, none⟩ with
    | none => none
    | some codes' => insertCodes codes' apiKeyId tenantId hashes

def replaceRecoveryCodes (tenantId : Uuid) (hashes : List String) : Option MfaTables :=
  (insertCodes (t.codes.delete fun c => c.apiKeyId == apiKeyId) apiKeyId tenantId hashes).map
    fun codes => { t with codes := codes }

end MfaStore

end WslVault.Storage
