import WslVault.Core.Seal
import WslVault.Storage.AuditStore

/-!
# Signatures of audit records

`services/audit-service/src/integrity.rs`: an HMAC over the fields of a record and its place
in the chain, under a key of the tenant. HKDF and HMAC are parameters, and so is how times
and JSON values print.
-/

namespace WslVault.AuditService

open Core Storage

structure AuditRecord extends StoredAuditEvent where
  verified : Option Bool

/-- HKDF-SHA256 without a salt, and HMAC-SHA256. -/
structure Hmac where
  deriveKey : (master info : Bytes) → Bytes
  sign : (key message : Bytes) → Bytes

/-- `to_rfc3339` and the compact text of a JSON value. -/
structure Texts where
  rfc3339 : Nanos → String
  compact : Json → String
  rfc3339_noNul : ∀ t, Char.ofNat 0 ∉ (rfc3339 t).toList

structure AuditSigner where
  hmac : Hmac
  texts : Texts
  master : Bytes

namespace AuditSigner

variable (signer : AuditSigner)

def keyFor (tenantId : String) : Bytes :=
  signer.hmac.deriveKey signer.master (asBytes ("wslvault:audit:v1:" ++ tenantId))

def nul : String := String.singleton (Char.ofNat 0)

def buildCanonicalMessageChained (record : AuditRecord) (seq : Int) (prevHash : String) : String :=
  nul.intercalate
    [record.id.toString, record.tenantId, record.principalId, record.action, record.resource,
      record.outcome, record.outcomeDetail, record.clientIp,
      signer.texts.rfc3339 record.timestamp, signer.texts.compact record.details,
      toString seq, prevHash]

def buildCanonicalMessage (record : AuditRecord) : String :=
  signer.buildCanonicalMessageChained record record.seq record.prevHash

def signEventChained (record : AuditRecord) (key : Bytes) (seq : Int) (prevHash : String) :
    String :=
  Seal.hexEncode
    (signer.hmac.sign key (asBytes (signer.buildCanonicalMessageChained record seq prevHash)))

def hexValue (c : Char) : Option Nat :=
  if '0' ≤ c ∧ c ≤ '9' then some (c.toNat - 48)
  else if 'a' ≤ c ∧ c ≤ 'f' then some (c.toNat - 87)
  else if 'A' ≤ c ∧ c ≤ 'F' then some (c.toNat - 55)
  else none

def hexBytes : List Char → Option Bytes
  | [] => some []
  | [_] => none
  | high :: low :: cs => do
    let h ← hexValue high
    let l ← hexValue low
    let rest ← hexBytes cs
    some (.ofNat (16 * h + l) :: rest)

def hexDecode (text : String) : Option Bytes := hexBytes text.toList

def verifySignature (record : AuditRecord) (key : Bytes) (signature : String) : Bool :=
  match hexDecode signature with
  | none => false
  | some bytes => signer.hmac.sign key (asBytes (signer.buildCanonicalMessage record)) == bytes

end AuditSigner

end WslVault.AuditService
