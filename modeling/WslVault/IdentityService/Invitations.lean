import Mathlib.Data.List.DropRight
import WslVault.IdentityService.ApiKeys
import WslVault.Storage.InvitationStore

/-!
# Invitations of the identity service

`services/identity-service/src/invitations.rs`: an administrator invites an address to a
tenant, and who holds the link mints a key with it. What the handlers do between two
statements has a definition of its own, as other requests may come in between.
-/

namespace WslVault.IdentityService

open Core Base Storage

namespace Invitations

def defaultTtlHours : Int := 72

def maxTtlHours : Int := 24 * 14

/-- How mail is sent, by the address, the name of the tenant, the link, and its
lifetime in hours. -/
abbrev Mailer := String → String → String → Int → Except String Unit

structure InvitationState where
  mailer : Option Mailer
  publicUrl : String

structure CreateInvitationRequest where
  email : String
  policies : Option (List String)
  expiresInHours : Option Int
  deriving DecidableEq

structure CreateInvitationResponse where
  id : Uuid
  email : String
  expiresAt : Timestamp
  invitationUrl : String
  emailSent : Bool
  emailError : Option String
  deriving DecidableEq

structure InvitationPreview where
  tenantName : String
  expiresAt : Timestamp
  shouldEnrolMfa : Bool
  deriving DecidableEq

structure AcceptResponse where
  (apiKey tenantId tenantName : String)
  shouldEnrolMfa : Bool
  deriving DecidableEq

/-- What the creation of an invitation draws; the generator of random bytes may fail. -/
structure InvitationDraw where
  token : Option Bytes
  id : Uuid

def generateToken (raw : Bytes) : String := Base64.encodeUrl raw

def looksLikeEmail (text : String) : Bool :=
  let s := Text.trim text
  match Text.splitOnce '@' s with
  | some (localPart, domain) =>
    localPart != "" && domain.toList.contains '.' && domain.toList.head? != some '.' &&
      domain.toList.getLast? != some '.' && !s.toList.any Text.isWhitespace
  | none => false

def loadLiveTenant (tenants : TenantTable) (tenantId : Uuid) : Except ErrorResponse TenantRow :=
  match getTenant tenants tenantId with
  | .ok t =>
    if t.deletedAt.isNone then .ok t else .error ⟨404, "tenant_not_found", "no such tenant"⟩
  | .error (.tenantNotFound _) => .error ⟨404, "tenant_not_found", "no such tenant"⟩
  | .error _ => .error ⟨500, "lookup_failed", "could not look up the tenant"⟩

def invitedTenant (tenantId : String) (req : CreateInvitationRequest) :
    Except ErrorResponse Uuid := do
  let tenantUuid ← okOr (Uuid.parseStr (Text.trim tenantId))
    ⟨400, "invalid_tenant_id", "tenant_id must be a UUID"⟩
  refuseIf (looksLikeEmail req.email = false)
    ⟨422, "invalid_email", "a valid email address is required"⟩
  return tenantUuid

variable (req : CreateInvitationRequest)

def ttlHours : Int :=
  max 1 (min (req.expiresInHours.getD defaultTtlHours) maxTtlHours)

def invitedPolicies : List String :=
  (req.policies.filter (· ≠ [])).getD ["default"]

variable (digest : String → String) (hashKey : String → List UInt8) (draw : InvitationDraw)

def recordInvitation (now : Timestamp)
    (tenants : TenantTable) (invitations : InvitationTable) (identity : AdminIdentity)
    (tenantUuid : Uuid) (req : CreateInvitationRequest) :
    Except ErrorResponse (InvitationTable × InvitationRow × String) := do
  let raw ← okOr draw.token
    ⟨500, "token_generation_failed", "could not generate an invitation token"⟩
  let token := generateToken raw
  let (invitations', invitation) ←
    (InvitationStore.create digest tenants invitations now draw.id tenantUuid req.email token
      (invitedPolicies req) identity.principalId (now + seconds (ttlHours req * 3600))).mapError
      fun _ => ⟨500, "invitation_not_created", "could not create the invitation"⟩
  return (invitations', invitation, token)

/-- The invitation stands, whether or not mail is sent. -/
def deliver (state : InvitationState) (tenant : TenantRow) (req : CreateInvitationRequest)
    (invitation : InvitationRow) (token : String) : CreateInvitationResponse :=
  let base := String.ofList (state.publicUrl.toList.rdropWhile (· == '/'))
  let url := base ++ "/invite/" ++ token
  let sent : Except String Unit :=
    match state.mailer with
    | some send => send req.email tenant.displayName url (ttlHours req)
    | none => .error "email is not configured; deliver the link yourself"
  { id := invitation.id
    email := invitation.email
    expiresAt := invitation.expiresAt
    invitationUrl := url
    emailSent := sent.toOption.isSome
    emailError := match sent with | .ok _ => none | .error e => some e }

def revocationTarget (tenantId id : String) : Except ErrorResponse (Uuid × Uuid) :=
  match Uuid.parseStr (Text.trim tenantId), Uuid.parseStr (Text.trim id) with
  | some tenantUuid, some invitationId => .ok (tenantUuid, invitationId)
  | _, _ => .error ⟨400, "invalid_id", "tenant_id and invitation id must be UUIDs"⟩

def invalidInvitation : ErrorResponse :=
  ⟨404, "invalid_invitation", "this invitation link is not valid"⟩

def invitationUsed : ErrorResponse :=
  ⟨410, "invitation_used",
    "this invitation has already been used — sign in with the key you were given"⟩

def invitationExpired : ErrorResponse :=
  ⟨410, "invitation_expired",
    "this invitation has expired — ask whoever invited you for a new one"⟩

def findRedeemable (now : Timestamp) (invitations : InvitationTable)
    (token : String) : Except ErrorResponse InvitationRow := do
  let invitation ← okOr (InvitationStore.findByToken digest invitations token) invalidInvitation
  refuseIf (invitation.isRedeemable now = false)
    (if invitation.usedAt.isSome then invitationUsed else invitationExpired)
  return invitation

def previewOf (invitation : InvitationRow) (tenant : Except ErrorResponse TenantRow) :
    InvitationPreview where
  tenantName := match tenant with | .ok t => t.displayName | .error _ => "your organisation"
  expiresAt := invitation.expiresAt
  shouldEnrolMfa := true

def tenantGone : ErrorResponse :=
  ⟨410, "tenant_gone", "the organisation this invitation was for no longer exists"⟩

def localPart (email : String) : String := (Text.split '@' email).head?.getD "invited"

def keyName (pending : InvitationRow) : String :=
  localPart pending.email ++ "-" ++ String.ofList (pending.id.hex.take 8)

def mintInvited (draw : Draw) (pending : InvitationRow) : String × ApiKeyRow :=
  ApiKeyManager.mintRow hashKey draw pending.tenantId (keyName pending) pending.policies
    ("invitation:" ++ pending.id.toString) false

def failureResponse : RedeemFailure → ErrorResponse
  | .alreadyUsed => invitationUsed
  | .expired => invitationExpired
  | .notFound => invalidInvitation

def acceptResponse (rawKey : String) (tenant : TenantRow) (invitation : InvitationRow) :
    AcceptResponse where
  apiKey := rawKey
  tenantId := invitation.tenantId.toString
  tenantName := tenant.displayName
  shouldEnrolMfa := true

/-- The first read is for what the key must carry; whether the invitation may be
redeemed is decided by the transaction. -/
def acceptInvitation (draw : Draw)
    (tenants : TenantTable) (keys : ApiKeyTable) (invitations : InvitationTable)
    (token : String) : Except ErrorResponse (ApiKeyTable × InvitationTable × AcceptResponse) := do
  let pending ← findRedeemable digest draw.now invitations token
  let tenant ← (loadLiveTenant tenants pending.tenantId).mapError fun _ => tenantGone
  let minted := mintInvited hashKey draw pending
  let (keys', invitations', invitation) ←
    (InvitationStore.redeem digest tenants keys invitations draw.now token minted.2).mapError
      failureResponse
  return (keys', invitations', acceptResponse minted.1 tenant invitation)

end Invitations

end WslVault.IdentityService
