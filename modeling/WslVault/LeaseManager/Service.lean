import WslVault.Base.Tasks
import WslVault.IdentityService.Grpc
import WslVault.LeaseManager.Store

/-!
# Requests about leases, and the sweep

The handlers of `services/lease-manager/src/grpc.rs` and `services/lease-manager/src/http.rs`,
the expiration sweep of `services/lease-manager/src/expiration.rs`, and the calls to the
identity service by which the last two end a token with its lease. A request is cut wherever
it waits for its store or for the identity service. `reap` is the identity service's reaper
of its list. Who may ask over HTTP is decided before.
-/

namespace WslVault.LeaseManager

open Core Base Storage
open IdentityService (RevocationList RevokeTokenByHashRequest Moment revokeTokenByHash)

structure CreateLeaseRequest where
  (tenantId targetType : String)
  targetData : TargetData
  (ttlSeconds maxTtlSeconds : Int)
  renewable : Bool
  deriving DecidableEq

def tokenLeaseTtlSeconds : Int := 3600

def tokenLeaseMaxTtlSeconds : Int := 86400

/-- What `try_create_token_lease` of the identity service asks for. -/
def tokenLeaseRequest (digest : String → String) (tenantId principalId token : String)
    (ttlSeconds : Int) : CreateLeaseRequest where
  tenantId := tenantId
  targetType := "token"
  targetData := .json (.token (digest token) principalId)
  ttlSeconds := if 0 < ttlSeconds then ttlSeconds else tokenLeaseTtlSeconds
  maxTtlSeconds := tokenLeaseMaxTtlSeconds
  renewable := true

/-- A request, with what it draws. Those over HTTP come with the tenant they are for. -/
inductive Request where
  | create (req : CreateLeaseRequest) (id : Uuid)
  | renew (leaseId : String) (incrementSeconds : Int)
  | renewHttp (tenantId leaseId : String) (incrementSeconds : Option Int)
  | revoke (leaseId : String)
  | revokeHttp (tenantId leaseId : String)
  | sweep
  | reap
  deriving DecidableEq

inductive Phase where
  | start
  /-- The lease is one of the tenant. -/
  | permitted (id : Uuid) (incrementSecs : Int)
  /-- The new end is computed. -/
  | renewing (id : Uuid) (expiresAt : Timestamp) (incrementSecs : Int)
  | renewed (id : Uuid)
  /-- The lease is read, and its token is to be revoked. -/
  | ending (record : LeaseRecord)
  /-- The lease is to be marked revoked. -/
  | told (id : Uuid)
  | listing (since : Timestamp)
  /-- The leases that are left of those listed. -/
  | sweeping (due : List LeaseRecord)
  | marking (record : LeaseRecord) (due : List LeaseRecord)
  deriving DecidableEq

inductive Code where
  | invalidArgument
  | notFound
  | failedPrecondition
  | internal
  deriving DecidableEq, Repr

inductive Response where
  | status (code : Code) (message : String)
  | apiError (status : Nat) (code message : String)
  | panicked
  | created (leaseId : Uuid) (ttlSeconds : Int) (expiresAt : Timestamp) (renewable : Bool)
  | renewed (leaseId : Uuid) (ttlSeconds : Int) (expiresAt : Timestamp)
  | revoked
  | noContent
  | swept
  | reaped
  deriving DecidableEq

structure LeaseSystem where
  leases : Backend
  revocations : RevocationList
  clock : Timestamp

abbrev ServiceTurn := Turn LeaseSystem Phase Response

abbrev LeaseSessions := Sessions LeaseSystem Request Phase

abbrev LeaseEvent := SessionEvent Request Moment

namespace LeaseSystem

/-! ## gRPC -/

variable (req : CreateLeaseRequest)

def lifetimes : Int × Int :=
  let maxTtl := if req.maxTtlSeconds ≤ 0 then 86400 else req.maxTtlSeconds
  (maxTtl, min req.ttlSeconds maxTtl)

def requestedTarget : Except Response LeaseTarget := do
  refuseIf (req.tenantId = "") (.status .invalidArgument "tenant_id is required")
  refuseIf (Uuid.parseStr req.tenantId = none)
    (.status .invalidArgument "tenant_id must be a UUID")
  refuseIf (req.ttlSeconds ≤ 0) (.status .invalidArgument "ttl_seconds must be positive")
  match req.targetData with
  | .other _ complaint =>
    throw (.status .invalidArgument
      ("target_data is not valid LeaseTarget JSON: " ++ complaint))
  | .json target =>
    refuseIf (req.targetType ≠ "" ∧ req.targetType ≠ target.typeStr)
      (.status .invalidArgument ("target_type '" ++ req.targetType ++
        "' does not match target_data (" ++ target.typeStr ++ ")"))
    return target

/-- The record of a new lease; a lifetime out of range panics. -/
def newRecord (now : Timestamp) (req : CreateLeaseRequest) (id : Uuid) :
    Except Response LeaseRecord := do
  let target ← requestedTarget req
  let (maxTtl, ttl) := lifetimes req
  let expiresAt ← okOr (later now ttl) .panicked
  .ok
    { id := id
      tenantId := req.tenantId
      targetType := target.typeStr
      targetData := .json target
      state := .active
      ttlSeconds := ttl
      maxTtlSeconds := maxTtl
      renewable := req.renewable
      issuedAt := now
      expiresAt := expiresAt
      revokedAt := none }

def failure (reply : String → Response) : StoreError → Response
  | .message text => reply text
  | .panicked => .panicked

variable (sys : LeaseSystem) (fault : Option String)

def createLease (req : CreateLeaseRequest) (id : Uuid) : ServiceTurn :=
  match newRecord sys.clock req id with
  | .error response => .finish sys response
  | .ok record =>
    match sys.leases.insertLease fault record with
    | .error e => .finish sys (failure (.status .internal) e)
    | .ok leases =>
      .finish { sys with leases := leases }
        (.created id record.ttlSeconds record.expiresAt record.renewable)

def invalidLeaseId : Response := .status .invalidArgument "invalid lease_id format"

def renewedReply (record : LeaseRecord) : Response :=
  .renewed record.id record.ttlSeconds record.expiresAt

/-- The first part of a renewal, which for the records in memory is all of it. -/
def beginRenewal (refuse : String → Response) (id : Uuid) (incrementSecs : Int) : ServiceTurn :=
  match sys.leases with
  | .memory leases =>
    match leases.renewLease sys.clock id incrementSecs with
    | .error e => .finish sys (failure refuse e)
    | .ok (leases', record) => .finish { sys with leases := .memory leases' } (renewedReply record)
  | .database _ rows =>
    match PgLeaseBackend.computeRenewal rows fault sys.clock id incrementSecs with
    | .error e => .finish sys (failure refuse e)
    | .ok expiresAt => .goOn sys (.renewing id expiresAt incrementSecs)

def writeRenewal (refuse : String → Response)
    (id : Uuid) (expiresAt : Timestamp) (incrementSecs : Int) : ServiceTurn :=
  match sys.leases with
  | .memory _ => .wait
  | .database tenants rows =>
    match PgLeaseBackend.writeRenewal rows fault id expiresAt incrementSecs with
    | .error e => .finish sys (failure refuse e)
    | .ok rows' => .goOn { sys with leases := .database tenants rows' } (.renewed id)

def refetchRenewed (refuse : String → Response) (id : Uuid) : ServiceTurn :=
  match sys.leases with
  | .memory _ => .wait
  | .database _ rows =>
    match PgLeaseBackend.refetch rows fault id with
    | .error e => .finish sys (failure refuse e)
    | .ok record => .finish sys (renewedReply record)

def renewLease (leaseId : String) (incrementSeconds : Int) : ServiceTurn :=
  match Uuid.parseStr leaseId with
  | none => .finish sys invalidLeaseId
  | some id =>
    if incrementSeconds ≤ 0 then
      .finish sys (.status .invalidArgument "increment_seconds must be positive")
    else beginRenewal sys fault (.status .failedPrecondition) id incrementSeconds

def revokeLease (leaseId : String) : ServiceTurn :=
  match Uuid.parseStr leaseId with
  | none => .finish sys invalidLeaseId
  | some id =>
    match sys.leases.revokeLease fault sys.clock id with
    | .error e => .finish sys (failure (.status .notFound) e)
    | .ok leases => .finish { sys with leases := leases } .revoked

def parseLeaseId (id : String) : Except Response Uuid :=
  okOr (Uuid.parseStr id) (.apiError 400 "invalid_argument" "invalid lease id")

def leaseNotFound : Response := .apiError 404 "not_found" "lease not found"

/-- A lease of another tenant is not found either. -/
def loadForTenant (tenantId leaseId : String) : Except Response (Uuid × LeaseRecord) := do
  let id ← parseLeaseId leaseId
  let record ← okOr (sys.leases.getLease fault id) leaseNotFound
  refuseIf (record.tenantId ≠ tenantId) leaseNotFound
  return (id, record)

def failedPrecondition (text : String) : Response := .apiError 400 "failed_precondition" text

def renewLeaseHttp (tenantId leaseId : String) (incrementSeconds : Option Int) : ServiceTurn :=
  match loadForTenant sys fault tenantId leaseId with
  | .error response => .finish sys response
  | .ok (id, _) =>
    let increment := incrementSeconds.getD 3600
    if increment ≤ 0 then
      .finish sys (.apiError 400 "invalid_argument" "increment_seconds must be positive")
    else .goOn sys (.permitted id increment)

/-- The lease is read; one that is revoked already is left alone. -/
def loadForRevocation (tenantId leaseId : String) : ServiceTurn :=
  match loadForTenant sys fault tenantId leaseId with
  | .error response => .finish sys response
  | .ok (id, record) =>
    if record.state = .revoked then .finish sys .noContent
    else
      match record.tokenRevocation with
      | some _ => .goOn sys (.ending record)
      | none => .goOn sys (.told id)

def revokeLeaseHttp (id : Uuid) : ServiceTurn :=
  match sys.leases.revokeLease fault sys.clock id with
  | .error e =>
    .finish sys <| failure (fun text =>
      if Text.contains text "not found" then leaseNotFound else .apiError 500 "internal" text) e
  | .ok leases => .finish { sys with leases := leases } .noContent

variable (configured : Bool)

/-- `revoke_token_by_hash`: the token of a lease is revoked until the lease's end. Without
a client for the identity service nothing is done, and without a token neither. -/
def revokeToken (sys : LeaseSystem) (fault : Option String)
    (record : LeaseRecord) : Except String LeaseSystem :=
  match record.tokenRevocation, configured with
  | some (hash, principalId, expiresAt), true =>
    match revokeTokenByHash sys.revocations ⟨sys.clock, fault⟩
        { tokenHash := hash, tenantId := record.tenantId, principalId := principalId,
          expiresAt := expiresAt } with
    | .ok revocations => .ok { sys with revocations := revocations }
    | .error e => .error ("identity-service unreachable: " ++ e.message)
  | _, _ => .ok sys

def tellIdentity (sys : LeaseSystem) (fault : Option String) (record : LeaseRecord) : ServiceTurn :=
  match sys.revokeToken configured fault record with
  | .error e => .finish sys (.apiError 503 "unavailable" e)
  | .ok sys' => .goOn sys' (.told record.id)

def listDue (since : Timestamp) : ServiceTurn :=
  .goOn sys (.sweeping (sys.leases.listStaleActiveLeases fault since))

/-- A lease whose token cannot be revoked is left for the next sweep. -/
def sweepNext (sys : LeaseSystem) (fault : Option String) : List LeaseRecord → ServiceTurn
  | [] => .finish sys .swept
  | record :: due =>
    match sys.revokeToken configured fault record with
    | .error _ => .goOn sys (.sweeping due)
    | .ok sys' => .goOn sys' (.marking record due)

def markNext (record : LeaseRecord) (due : List LeaseRecord) : ServiceTurn :=
  match sys.leases.markExpired fault record.id with
  | .error _ => .goOn sys (.sweeping due)
  | .ok leases => .goOn { sys with leases := leases } (.sweeping due)

def reapRevocations : ServiceTurn :=
  .finish { sys with revocations := IdentityService.reap sys.revocations ⟨sys.clock, fault⟩ }
    .reaped

def turn (sys : LeaseSystem) (fault : Option String) : Request → Phase → ServiceTurn
  | .create req id, .start => sys.createLease fault req id
  | .renew leaseId incrementSeconds, .start => sys.renewLease fault leaseId incrementSeconds
  | .renew _ _, .renewing id expiresAt incrementSecs =>
    sys.writeRenewal fault (.status .failedPrecondition) id expiresAt incrementSecs
  | .renew _ _, .renewed id => sys.refetchRenewed fault (.status .failedPrecondition) id
  | .renewHttp tenantId leaseId incrementSeconds, .start =>
    sys.renewLeaseHttp fault tenantId leaseId incrementSeconds
  | .renewHttp _ _ _, .permitted id incrementSecs =>
    sys.beginRenewal fault failedPrecondition id incrementSecs
  | .renewHttp _ _ _, .renewing id expiresAt incrementSecs =>
    sys.writeRenewal fault failedPrecondition id expiresAt incrementSecs
  | .renewHttp _ _ _, .renewed id => sys.refetchRenewed fault failedPrecondition id
  | .revoke leaseId, .start => sys.revokeLease fault leaseId
  | .revokeHttp tenantId leaseId, .start => sys.loadForRevocation fault tenantId leaseId
  | .revokeHttp _ _, .ending record => sys.tellIdentity configured fault record
  | .revokeHttp _ _, .told id => sys.revokeLeaseHttp fault id
  | .sweep, .start => .goOn sys (.listing sys.clock)
  | .sweep, .listing since => sys.listDue fault since
  | .sweep, .sweeping due => sys.sweepNext configured fault due
  | .sweep, .marking record due => sys.markNext fault record due
  | .reap, .start => sys.reapRevocations fault
  -- no other combination comes up
  | _, _ => .wait

/-- `configured` says whether there is a client for the identity service. -/
def advance (sys : LeaseSystem) (_ : List (Request × Phase)) (m : Moment) :
    Request → Phase → ServiceTurn :=
  { sys with clock := m.now }.turn configured m.fault

def step : LeaseSessions → LeaseEvent → LeaseSessions × Option (Request × Response) :=
  Tasks.step .start (advance configured)

end LeaseSystem

end WslVault.LeaseManager
