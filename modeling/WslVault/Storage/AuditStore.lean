import WslVault.Base.Chain
import WslVault.Core.Error
import WslVault.Core.Json
import WslVault.Core.Types
import WslVault.Core.Uuid

/-!
# Audit events

The table `shared.audit_events` (`001_schema.sql`, `022_audit_hash_chain.sql`) with its two
functions, and `crates/wslvault-storage/src/audit_store.rs`. The columns have types of their
own, through which an event goes when it is stored and read back. The table has no key, so a
list of rows stands for it, in the order of their commits. What the database makes of an
IPv6 address, and of a number that is no integer, are parameters.
-/

namespace WslVault.Storage

open Core Base

abbrev Nanos := Int

/-- The first instant of the year 2000, from which the driver counts. -/
def pgEpoch : Timestamp := seconds 946684800

/-- `TIMESTAMPTZ`: what is finer than a microsecond is cut off, towards that instant. -/
def toTimestamptz (t : Nanos) : Timestamp := pgEpoch + (t - pgEpoch * 1000).tdiv 1000

def ofTimestamptz (t : Timestamp) : Nanos := t * 1000

/-- What PostgreSQL does that is left open: an IPv6 address as it prints it, with its
length, and a number as it reads back. -/
structure PgTypes where
  inet6 : List Char → Option (List Char)
  number : String → Json
  inet6_noNul : ∀ cs text, inet6 cs = some text → Char.ofNat 0 ∉ text

inductive Inet where
  | v4 (a b c d : Nat) (bits : Nat)
  | v6 (text : List Char)
  deriving DecidableEq, Repr

namespace Inet

variable (cs : List Char)

def digitsValue : Nat := cs.foldl (fun n c => 10 * n + (c.toNat - 48)) 0

def number (limit : Nat) (cs : List Char) : Option Nat :=
  if cs ≠ [] ∧ (cs.all fun c => c.isDigit) = true ∧ digitsValue cs ≤ limit then
    some (digitsValue cs)
  else none

/-- The octets, and the length if one is there. -/
def splitBits : Option (List Char × Option Nat) :=
  match Text.splitChars '/' cs with
  | [address] => some (address, none)
  | [address, bits] => (number 32 bits).map fun n => (address, some n)
  | _ => none

/-- Octets that are missing are zero if a length is there that does not reach into them. -/
def ofOctets : List Nat → Option Nat → Option Inet
  | [a, b, c, d], none => some (v4 a b c d 32)
  | [a], some n => if n / 8 ≤ 1 then some (v4 a 0 0 0 n) else none
  | [a, b], some n => if n / 8 ≤ 2 then some (v4 a b 0 0 n) else none
  | [a, b, c], some n => if n / 8 ≤ 3 then some (v4 a b c 0 n) else none
  | [a, b, c, d], some n => some (v4 a b c d n)
  | _, _ => none

def parseV4 : Option Inet := do
  let (address, bits) ← splitBits cs
  let octets ← (Text.splitChars '.' address).mapM (number 255)
  ofOctets octets bits

def ofText (pg : PgTypes) (text : String) : Option Inet :=
  if text.toList.contains ':' then (pg.inet6 text.toList).map v6 else parseV4 text.toList

/-- The cast `::text`: the address with its length, also where that is the whole of it. -/
def text : Inet → String
  | v4 a b c d bits =>
    toString a ++ "." ++ toString b ++ "." ++ toString c ++ "." ++ toString d ++ "/" ++
      toString bits
  | v6 text => String.ofList text

end Inet

/-- No text of the database has the character 0. -/
def hasNul (text : String) : Bool := text.toList.contains (Char.ofNat 0)

mutual

/-- `JSONB`: what a value reads back as, if it can be stored. -/
def jsonb (pg : PgTypes) : Json → Option Json
  | .null => some .null
  | .bool b => some (.bool b)
  | .int n => some (.int n)
  | .float text => some (pg.number text)
  | .string s => if hasNul s then none else some (.string s)
  | .array items => (jsonbItems pg items).map .array
  | .object fields => (jsonbFields pg fields).map .object

def jsonbItems (pg : PgTypes) : List Json → Option (List Json)
  | [] => some []
  | item :: items =>
    match jsonb pg item, jsonbItems pg items with
    | some item', some items' => some (item' :: items')
    | _, _ => none

def jsonbFields (pg : PgTypes) : List (String × Json) → Option (List (String × Json))
  | [] => some []
  | (name, value) :: fields =>
    match jsonb pg value, jsonbFields pg fields with
    | some value', some fields' => if hasNul name then none else some ((name, value') :: fields')
    | _, _ => none

end

structure StoredAuditEvent where
  id : Uuid
  (tenantId principalId action resource : String)
  (outcome outcomeDetail : String)
  details : Json
  (clientIp signature : String)
  timestamp : Nanos
  seq : Int
  prevHash : String

structure AuditRow where
  (id tenantId : Uuid)
  (principalId action resource outcome : String)
  outcomeDetail : Option String
  details : Json
  clientIp : Option Inet
  signature : Option String
  timestamp : Timestamp
  seq : Option Int
  prevHash : Option String

namespace AuditStore

/-- An address that is not there is `NULL`. -/
def clientIpOrNull (ip : String) : Option String :=
  if Text.trim ip = "" then none else some (Text.trim ip)

def castInet (pg : PgTypes) : Option String → Option (Option Inet)
  | none => some none
  | some text => (Inet.ofText pg text).map some

/-- The row that the `INSERT` of `insert_event_chained` makes; `none` if a value does not
fit its column. -/
def chainedRow (pg : PgTypes) (tenantId : Uuid) (event : StoredAuditEvent) (signature : String)
    (seq : Int) (prevHash : String) : Option AuditRow := do
  if [event.principalId, event.action, event.resource, event.outcome, event.outcomeDetail,
      event.clientIp].any hasNul then none
  let details ← jsonb pg event.details
  let clientIp ← castInet pg (clientIpOrNull event.clientIp)
  some
    { id := event.id
      tenantId := tenantId
      principalId := event.principalId
      action := event.action
      resource := event.resource
      outcome := event.outcome
      outcomeDetail := some event.outcomeDetail
      details := details
      clientIp := clientIp
      signature := some signature
      timestamp := toTimestamptz event.timestamp
      seq := some seq
      prevHash := some prevHash }

def ofRow (row : AuditRow) : StoredAuditEvent where
  id := row.id
  tenantId := row.tenantId.toString
  principalId := row.principalId
  action := row.action
  resource := row.resource
  outcome := row.outcome
  outcomeDetail := row.outcomeDetail.getD ""
  details := row.details
  clientIp := (row.clientIp.map Inet.text).getD ""
  signature := row.signature.getD ""
  timestamp := ofTimestamptz row.timestamp
  seq := row.seq.getD 0
  prevHash := row.prevHash.getD ""

/-- `WHERE tenant_id = … AND seq IS NOT NULL`. -/
def isChained (tenantId : Uuid) (row : AuditRow) : Bool :=
  row.tenantId == tenantId && row.seq.isSome

def num (row : AuditRow) : Int := row.seq.getD 0

variable (rows : List AuditRow)

def ordered (tenantId : Uuid) : List AuditRow :=
  (rows.filter (isChained tenantId)).insertionSort fun a b => num a ≤ num b

def auditChainTip (tenantId : Uuid) : Option (Int × String) :=
  (ordered rows tenantId).getLast?.map fun row => (num row, row.signature.getD "")

def breakAt (prior row : AuditRow) : Option (Int × String) :=
  if num row ≠ num prior + 1 then some (num row, "sequence gap: records are missing")
  else if prior.signature.isSome && row.prevHash != prior.signature then
    some (num row, "prev_hash does not match the preceding record")
  else none

/-- `audit_chain_breaks`: the first row has none before it. -/
def auditChainBreaks (tenantId : Uuid) : List (Int × String) :=
  (Chain.neighbours (ordered rows tenantId)).filterMap fun p => breakAt p.1 p.2

structure EventFilter where
  tenantId : Uuid
  (startTime endTime : Option Nanos)
  (action principal : Option String)

variable (f : EventFilter)

def EventFilter.admits (row : AuditRow) : Bool :=
  row.tenantId == f.tenantId &&
    f.startTime.all (fun t => toTimestamptz t ≤ row.timestamp) &&
    f.endTime.all (fun t => row.timestamp ≤ toTimestamptz t) &&
    f.action.all (fun a => row.action == a) && f.principal.all fun p => row.principalId == p

def page (limit offset : Nat) : List AuditRow :=
  (((rows.filter f.admits).insertionSort fun a b => b.timestamp ≤ a.timestamp).drop offset).take
    limit

/-- A page of the events, and how many there are in all. -/
def queryEvents (limit offset : Nat) : List StoredAuditEvent × Nat :=
  ((page rows f limit offset).map ofRow, (rows.filter f.admits).length)

end AuditStore

end WslVault.Storage
