import WslVault.IdentityService.Invitations

/-!
# Key management

The requests by which API keys come to be and go, one after another: those of
administrators behind `require_admin`, and the redemption of invitations, which
needs no credential. A reply names the caller that the gate has let through.
-/

namespace WslVault.IdentityService

open Core Base Storage

inductive KeyCall where
  | create (payload : ApiKeyCreateRequest)
  | list
  | revoke (id : String)
  | rotate (id : String)

inductive ManagementEvent where
  | manage (w : AdminWorld) (headers : Headers) (call : KeyCall) (draw : Draw)
  | accept (token : String) (draw : Draw)

inductive ManagementAnswer where
  | created (response : ApiKeyCreateResponse)
  | listed (keys : List ApiKeyMetadataResponse)
  | revoked
  | accepted (response : Invitations.AcceptResponse)
  deriving DecidableEq

def ManagementAnswer.rawKey : ManagementAnswer → Option String
  | created response => some response.key
  | accepted response => some response.apiKey
  | listed _ => none
  | revoked => none

structure ManagementReply where
  caller : Option AdminIdentity
  result : Except ErrorResponse ManagementAnswer
  deriving DecidableEq

structure Management where
  backend : Backend
  signing : Option SigningKeys
  invitations : InvitationTable

namespace Management

def serve (hashKey : String → List UInt8) (draw : Draw) (backend : Backend)
    (identity : AdminIdentity) (headers : Headers) :
    KeyCall → Backend × Except ErrorResponse ManagementAnswer
  | .create payload =>
    match handleCreateApiKey hashKey draw backend identity payload with
    | .ok (backend', response) => (backend', .ok (.created response))
    | .error e => (backend, .error e)
  | .list => (backend, (handleListApiKeys draw.now backend identity headers).map .listed)
  | .revoke id =>
    match handleRevokeApiKey draw.now backend identity id headers with
    | .ok backend' => (backend', .ok .revoked)
    | .error e => (backend, .error e)
  | .rotate id =>
    let done := handleRotateApiKey hashKey draw backend identity id headers
    (done.1, done.2.map .created)

/-- Without a database there are no routes for invitations. -/
def redeem (digest : String → String) (hashKey : String → List UInt8) (draw : Draw)
    (s : Management) (token : String) : Management × Except ErrorResponse ManagementAnswer :=
  match s.backend with
  | .memory _ _ => (s, .error ⟨404, "", ""⟩)
  | .database tenants keys =>
    match Invitations.acceptInvitation digest hashKey draw tenants keys s.invitations token with
    | .error e => (s, .error e)
    | .ok (keys', invitations', response) =>
      ({ s with backend := .database tenants keys', invitations := invitations' },
        .ok (.accepted response))

def step (auth : AdminAuth) (digest : String → String) (hashKey : String → List UInt8)
    (s : Management) : ManagementEvent → Management × ManagementReply
  | .manage w headers call draw =>
    let gate := auth.authenticate w s.signing headers
    match gate.2 with
    | .error rejection => ({ s with signing := gate.1 }, ⟨none, .error rejection.response⟩)
    | .ok identity =>
      let served := serve hashKey draw s.backend identity headers call
      ({ s with signing := gate.1, backend := served.1 }, ⟨some identity, served.2⟩)
  | .accept token draw =>
    let served := redeem digest hashKey draw s token
    (served.1, ⟨none, served.2⟩)

end Management

end WslVault.IdentityService
