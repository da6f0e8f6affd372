import WslVault.Base.Tasks
import WslVault.IdentityService.Invitations

/-!
# Requests about invitations that overlap

The handlers of `services/identity-service/src/invitations.rs` one statement at a time, on a
PostgreSQL database whose transactions read what is committed. Of two rows that no unique
index admits together, the second insertion waits for the transaction of the first. A row
that a transaction has updated is locked until it ends: a statement that would change the
row waits, and then reads it anew. `now()` is the start of a transaction. A statement may
fail, and then leaves nothing. A commit that is reported as failed may have been done.
-/

namespace WslVault.IdentityService.Invitations

open Core Base Storage

structure Database where
  tenants : TenantTable
  keys : ApiKeyTable
  invitations : InvitationTable

/-- A request, with what it draws. The last is whatever else happens to the tenants. -/
inductive Request where
  | create (identity : AdminIdentity) (tenantId : String) (req : CreateInvitationRequest)
      (draw : InvitationDraw)
  | preview (token : String)
  | accept (token : String) (secret : Bytes) (keyId : Uuid)
  | revoke (tenantId id : String)
  | reap
  | setTenants (tenants : TenantTable)

/-- The transaction that redeems an invitation, which began at `since`. -/
structure Redemption where
  hash : String
  tenant : TenantRow
  rawKey : String
  key : ApiKeyRow
  since : Timestamp

inductive Phase where
  | start
  | creating (tenantId : Uuid) (tenant : TenantRow)
  | previewing (invitation : InvitationRow)
  | found (pending : InvitationRow)
  | live (pending : InvitationRow) (tenant : TenantRow)
  | opened (r : Redemption)
  /-- The key is inserted. -/
  | inserted (r : Redemption)
  /-- There was no invitation to claim. -/
  | missed (r : Redemption)
  | claimed (r : Redemption)

inductive Response where
  | refused (e : ErrorResponse)
  | created (response : CreateInvitationResponse)
  | previewed (preview : InvitationPreview)
  | accepted (response : AcceptResponse)
  /-- The commit was done and its answer lost: the caller gets the error alone. -/
  | lost (e : ErrorResponse) (response : AcceptResponse)
  | revoked
  | reaped (count : Nat)
  | done
  deriving DecidableEq

structure Moment where
  now : Timestamp
  fault : Bool
  /-- Whether a commit that is reported as failed was done. -/
  took : Bool

abbrev Event := SessionEvent Request Moment

namespace Phase

/-- The key that a transaction has inserted and not committed. -/
def uncommitted : Phase → Option ApiKeyRow
  | inserted r => some r.key
  | missed r => some r.key
  | claimed r => some r.key
  | _ => none

/-- The digest of the invitation that a transaction has locked. -/
def locked : Phase → Option String
  | claimed r => some r.hash
  | _ => none

end Phase

def isLocked (others : List (Request × Phase)) (i : InvitationRow) : Bool :=
  others.any fun x => x.2.locked == some i.tokenHash

def clashes (others : List (Request × Phase)) (key : ApiKeyRow) : Bool :=
  others.any fun x => x.2.uncommitted.any fun k => decide (k.Clash key)

def lookupFailed : ErrorResponse := ⟨500, "lookup_failed", "could not check this invitation"⟩

section Advance

variable (state : InvitationState) (digest : String → String) (hashKey : String → List UInt8)

abbrev Statement := Progress Database Phase Response

def refuse (db : Database) (e : ErrorResponse) : Statement := .finish db (.refused e)

def readTenant (db : Database) (m : Moment) (tenantId : Uuid) : Except ErrorResponse TenantRow :=
  if m.fault then .error ⟨500, "lookup_failed", "could not look up the tenant"⟩
  else loadLiveTenant db.tenants tenantId

def readInvitation (db : Database) (m : Moment) (token : String) :
    Except ErrorResponse InvitationRow :=
  if m.fault then .error lookupFailed else findRedeemable digest m.now db.invitations token

def startCreate (db : Database) (m : Moment) (tenantId : String) (req : CreateInvitationRequest) :
    Statement :=
  match invitedTenant tenantId req with
  | .error e => refuse db e
  | .ok tenantUuid =>
    match readTenant db m tenantUuid with
    | .error e => refuse db e
    | .ok tenant => .goOn (.creating tenantUuid tenant)

def record (db : Database) (m : Moment) (identity : AdminIdentity) (req : CreateInvitationRequest)
    (draw : InvitationDraw) (tenantUuid : Uuid) (tenant : TenantRow) : Statement :=
  match recordInvitation digest draw m.now db.tenants db.invitations identity tenantUuid req with
  | .error e => refuse db e
  | .ok (invitations', invitation, token) =>
    if m.fault then
      refuse db ⟨500, "invitation_not_created", "could not create the invitation"⟩
    else
      .finish { db with invitations := invitations' }
        (.created (deliver state tenant req invitation token))

def startPreview (db : Database) (m : Moment) (token : String) : Statement :=
  match readInvitation digest db m token with
  | .error e => refuse db e
  | .ok invitation => .goOn (.previewing invitation)

def startAccept (db : Database) (m : Moment) (token : String) : Statement :=
  match readInvitation digest db m token with
  | .error e => refuse db e
  | .ok pending => .goOn (.found pending)

def findTenant (db : Database) (m : Moment) (pending : InvitationRow) : Statement :=
  match readTenant db m pending.tenantId with
  | .error _ => refuse db tenantGone
  | .ok tenant => .goOn (.live pending tenant)

def begin (db : Database) (m : Moment) (token : String) (secret : Bytes) (keyId : Uuid)
    (pending : InvitationRow) (tenant : TenantRow) : Statement :=
  let minted := mintInvited hashKey ⟨secret, keyId, m.now⟩ pending
  if m.fault then refuse db invalidInvitation
  else
    .goOn (.opened
      { hash := InvitationStore.tokenHash digest token
        tenant := tenant
        rawKey := minted.1
        key := minted.2
        since := m.now })

def insertKey (db : Database) (others : List (Request × Phase)) (m : Moment) (r : Redemption) :
    Statement :=
  match ApiKeyStore.storedRow r.key, ApiKeyStore.insert db.tenants db.keys r.key with
  | .ok stored, .ok _ =>
    if m.fault then refuse db invalidInvitation
    else if clashes others stored then .wait
    else .goOn (.inserted { r with key := stored })
  | _, _ => refuse db invalidInvitation

/-- The invitation as it is now: a row that another transaction has claimed is waited for. -/
def claimInvitation (db : Database) (others : List (Request × Phase)) (m : Moment)
    (r : Redemption) : Statement :=
  if m.fault then refuse db invalidInvitation
  else
    match InvitationStore.claim db.invitations r.hash r.since r.key.id with
    | none => .goOn (.missed r)
    | some (_, invitation) =>
      if isLocked others invitation then .wait else .goOn (.claimed r)

def explain (db : Database) (m : Moment) (r : Redemption) : Statement :=
  refuse db (failureResponse
    (if m.fault then .notFound else InvitationStore.classifyMiss db.invitations r.hash))

/-- What the transaction has written is what it has inserted and claimed. -/
def commit (db : Database) (m : Moment) (r : Redemption) : Statement :=
  match db.keys.insert? r.key, InvitationStore.claim db.invitations r.hash r.since r.key.id with
  | some keys', some (invitations', invitation) =>
    let response := acceptResponse r.rawKey r.tenant invitation
    if m.fault && !m.took then refuse db invalidInvitation
    else
      .finish { db with keys := keys', invitations := invitations' }
        (if m.fault then .lost invalidInvitation response else .accepted response)
  | _, _ => refuse db invalidInvitation

/-- A deletion waits for the rows that are locked. -/
def delete (db : Database) (others : List (Request × Phase)) (doomed : InvitationRow → Bool)
    (reply : Response) : Statement :=
  if db.invitations.rows.any fun i => doomed i && isLocked others i then .wait
  else .finish { db with invitations := db.invitations.delete doomed } reply

def revoke (db : Database) (others : List (Request × Phase)) (m : Moment) (tenantId id : String) :
    Statement :=
  match revocationTarget tenantId id with
  | .error e => refuse db e
  | .ok (tenantUuid, invitationId) =>
    if m.fault then refuse db ⟨500, "revoke_failed", "could not revoke the invitation"⟩
    else
      let pending (i : InvitationRow) : Bool :=
        i.id == invitationId && i.tenantId == tenantUuid && i.usedAt.isNone
      if db.invitations.rows.any pending then delete db others pending .revoked
      else refuse db ⟨404, "not_found", "no pending invitation with that id"⟩

def reap (db : Database) (others : List (Request × Phase)) (m : Moment) : Statement :=
  if m.fault then refuse db ⟨500, "", "invitation reaper failed"⟩
  else
    delete db others (InvitationStore.reapable m.now)
      (.reaped (db.invitations.select (InvitationStore.reapable m.now)).length)

def advance (db : Database) (others : List (Request × Phase)) (m : Moment) :
    Request → Phase → Statement
  | .create _ tenantId req _, .start => startCreate db m tenantId req
  | .create identity _ req draw, .creating tenantUuid tenant =>
    record state digest db m identity req draw tenantUuid tenant
  | .preview token, .start => startPreview digest db m token
  | .preview _, .previewing invitation =>
    .finish db (.previewed (previewOf invitation (readTenant db m invitation.tenantId)))
  | .accept token _ _, .start => startAccept digest db m token
  | .accept _ _ _, .found pending => findTenant db m pending
  | .accept token secret keyId, .live pending tenant =>
    begin digest hashKey db m token secret keyId pending tenant
  | .accept _ _ _, .opened r => insertKey db others m r
  | .accept _ _ _, .inserted r => claimInvitation db others m r
  | .accept _ _ _, .missed r => explain db m r
  | .accept _ _ _, .claimed r => commit db m r
  | .revoke tenantId id, .start => revoke db others m tenantId id
  | .reap, .start => reap db others m
  | .setTenants tenants, .start => .finish { db with tenants := tenants } .done
  -- no other combination comes up
  | _, _ => .wait

def step : Sessions Database Request Phase → Event →
    Sessions Database Request Phase × Option (Request × Response) :=
  Sessions.step .start (advance state digest hashKey)

end Advance

end WslVault.IdentityService.Invitations
