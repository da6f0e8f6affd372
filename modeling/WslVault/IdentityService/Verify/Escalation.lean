import WslVault.IdentityService.Management
import WslVault.IdentityService.Verify.Revocation

/-!
# Keys of superusers

A creation of a superuser's key is refused to a caller that is none. A rotation copies the
flag of the old key and asks nothing of the caller.
-/

namespace WslVault.IdentityService

open Core Base Storage ApiKeyManager Management

variable {hashKey : String → List UInt8} {draw : Draw} {backend backend' : Backend}

variable {response : ApiKeyCreateResponse} {s : Management} {caller : Option AdminIdentity}

theorem createKey_record {req : ApiKeyCreateRequest} {createdBy : String}
    (h : createKey hashKey draw backend req createdBy = .ok (backend', response)) :
    ∃ record, findByHash backend' (hashKey response.key) = some record ∧
      record.isSuperuser = req.isSuperuser := by
  cases backend with
  | database tenants keys =>
    simp only [createKey, bind_eq_ok, pure_eq_ok, Prod.mk.injEq] at h
    obtain ⟨-, -, tenantId, -, -, -, keys', hkeys, rfl, rfl⟩ := h
    obtain ⟨stored, hstored, hfind⟩ := ApiKeyStore.findByHash_insert (mapError_eq_ok hkeys)
    refine ⟨.ofRow stored, congrArg (Option.map ApiKeyRecord.ofRow) hfind, ?_⟩
    exact ApiKeyStore.isSuperuser_storedRow hstored
  | memory byHash idToHash =>
    simp only [createKey, bind_eq_ok, pure_eq_ok, Prod.mk.injEq] at h
    obtain ⟨-, -, -, -, rfl, rfl⟩ := h
    exact ⟨_, AList.lookup_insert _, rfl⟩

theorem handleCreateApiKey_record {identity : AdminIdentity} {payload : ApiKeyCreateRequest}
    (h : handleCreateApiKey hashKey draw backend identity payload = .ok (backend', response)) :
    ∃ record, findByHash backend' (hashKey response.key) = some record ∧
      (record.isSuperuser = true → identity.superuser = true) := by
  simp only [handleCreateApiKey, bind_eq_ok, refuseIf_eq_ok] at h
  obtain ⟨-, hgrant, payload', hpayload, hcreate⟩ := h
  obtain ⟨record, hrecord, hflag⟩ := createKey_record (mapError_eq_ok hcreate)
  have hsame : payload'.isSuperuser = payload.isSuperuser := by
    unfold payloadTenant at hpayload
    split at hpayload
    · cases hpayload
      rfl
    · split at hpayload
      · cases hpayload
      · cases hpayload
        rfl
  refine ⟨record, hrecord, fun hsuper => ?_⟩
  rw [hflag, hsame] at hsuper
  simpa [hsuper] using hgrant

theorem rotateKey_record {keyId : Uuid} {tenantId : String}
    (h : rotateKey hashKey draw backend keyId tenantId = (backend', .ok response)) :
    ∃ old record, findById backend keyId tenantId = .ok old ∧
      findByHash backend' (hashKey response.key) = some record ∧
      record.isSuperuser = old.isSuperuser := by
  unfold rotateKey at h
  split at h
  · cases h
  · next old hold =>
    split at h
    · cases h
    · split at h
      · cases h
      · next created response' hcreate =>
        cases h
        obtain ⟨record, hrecord, hflag⟩ := createKey_record hcreate
        exact ⟨old, record, hold, hrecord, hflag⟩

theorem acceptInvitation_record {digest : String → String} {tenants : TenantTable}
    {keys keys' : ApiKeyTable} {invitations invitations' : InvitationTable} {token : String}
    {response : Invitations.AcceptResponse}
    (h : Invitations.acceptInvitation digest hashKey draw tenants keys invitations token =
      .ok (keys', invitations', response)) :
    ∃ row, ApiKeyStore.findByHash keys' (hashKey response.apiKey) = some row ∧
      row.isSuperuser = false := by
  simp only [Invitations.acceptInvitation, InvitationStore.redeem, bind_eq_ok, pure_eq_ok,
    Prod.mk.injEq] at h
  obtain ⟨pending, -, tenant, -, ⟨keys₁, invitations₁, invitation⟩, hredeem, rfl, rfl, rfl⟩ := h
  have hredeem := mapError_eq_ok hredeem
  simp only [bind_eq_ok, pure_eq_ok, Prod.mk.injEq] at hredeem
  obtain ⟨keys₂, hinsert, _, _, rfl, -, -⟩ := hredeem
  obtain ⟨stored, hstored, hfind⟩ := ApiKeyStore.findByHash_insert (mapError_eq_ok hinsert)
  exact ⟨stored, hfind, ApiKeyStore.isSuperuser_storedRow hstored⟩

/-! ## Runs -/

/-- A reply that hands out a superuser's key goes to a superuser. -/
def SuperusersOnly (hashKey : String → List UInt8) (served : Management × ManagementReply) : Prop :=
  ∀ answer rawKey record, served.2.result = .ok answer → answer.rawKey = some rawKey →
    ApiKeyManager.findByHash served.1.backend (hashKey rawKey) = some record →
    record.isSuperuser = true →
    ∃ identity, served.2.caller = some identity ∧ identity.superuser = true

def rotates (auth : AdminAuth) (s : Management) :
    ManagementEvent → Option (AdminIdentity × ApiKeyRecord)
  | .manage w headers (.rotate id) _ => do
    let identity ← (auth.authenticate w s.signing headers).2.toOption
    let target ← (rotationTarget identity id headers).toOption
    let record ← (ApiKeyManager.findById s.backend target.1 target.2).toOption
    return (identity, record)
  | _ => none

/-- No caller but a superuser asks to rotate a superuser's key. -/
def Contained (auth : AdminAuth) (s : Management) (e : ManagementEvent) : Prop :=
  ∀ identity record, rotates auth s e = some (identity, record) → record.isSuperuser = true →
    identity.superuser = true

variable {auth : AdminAuth} {digest : String → String}

theorem superusersOnly_of_error {e : ErrorResponse} :
    SuperusersOnly hashKey (s, ⟨caller, .error e⟩) :=
  fun _ _ _ h => absurd h (by simp)

theorem superusersOnly_of_record
    {answer : ManagementAnswer} {rawKey : String} {record : ApiKeyRecord}
    (hraw : answer.rawKey = some rawKey)
    (hrecord : findByHash s.backend (hashKey rawKey) = some record)
    (hsuper : record.isSuperuser = true →
      ∃ identity, caller = some identity ∧ identity.superuser = true) :
    SuperusersOnly hashKey (s, ⟨caller, .ok answer⟩) := by
  intro answer' rawKey' record' hanswer hraw' hrecord' hsuper'
  cases hanswer
  cases hraw.symm.trans hraw'
  cases hrecord.symm.trans hrecord'
  exact hsuper hsuper'

theorem superusersOnly_of_no_key {result : Except ErrorResponse ManagementAnswer}
    (h : ∀ answer, result = .ok answer → answer.rawKey = none) :
    SuperusersOnly hashKey (s, ⟨caller, result⟩) := by
  intro answer rawKey record hanswer hraw
  rw [h answer hanswer] at hraw
  cases hraw

/-- Nobody but a superuser is handed a superuser's key. -/
theorem superusersOnly_step {e : ManagementEvent} (h : Contained auth s e) :
    SuperusersOnly hashKey (step auth digest hashKey s e) := by
  cases e with
  | accept token draw =>
    simp only [step, redeem]
    split
    · exact superusersOnly_of_error
    · split
      · exact superusersOnly_of_error
      · next keys' invitations' response haccept =>
        obtain ⟨row, hrow, hflag⟩ := acceptInvitation_record haccept
        have hrecord := congrArg (Option.map ApiKeyRecord.ofRow) hrow
        refine superusersOnly_of_record rfl hrecord fun hsuper => ?_
        exact absurd (hflag.symm.trans hsuper) (by simp)
  | manage w headers call draw =>
    simp only [step]
    split
    · exact superusersOnly_of_error
    · next identity hgate =>
      cases call with
      | create payload =>
        simp only [serve]
        split
        · next backend' response hcreate =>
          obtain ⟨record, hrecord, hsuper⟩ := handleCreateApiKey_record hcreate
          exact superusersOnly_of_record rfl hrecord fun h => ⟨identity, rfl, hsuper h⟩
        · exact superusersOnly_of_error
      | list =>
        refine superusersOnly_of_no_key fun answer hanswer => ?_
        simp only [serve] at hanswer
        cases hlist : handleListApiKeys draw.now s.backend identity headers with
        | error e => rw [hlist] at hanswer; cases hanswer
        | ok keys => rw [hlist] at hanswer; cases hanswer; rfl
      | revoke id =>
        simp only [serve]
        split
        · exact superusersOnly_of_no_key fun answer hanswer => by cases hanswer; rfl
        · exact superusersOnly_of_error
      | rotate id =>
        simp only [serve, handleRotateApiKey]
        split
        · exact superusersOnly_of_error
        · next keyId tenantId htarget =>
          cases hrotate : rotateKey hashKey draw s.backend keyId tenantId with
          | mk backend' result =>
            cases result with
            | error e => exact superusersOnly_of_error
            | ok response =>
              obtain ⟨old, record, hold, hrecord, hflag⟩ := rotateKey_record hrotate
              refine superusersOnly_of_record rfl hrecord fun hsuper => ⟨identity, rfl, ?_⟩
              refine h identity old ?_ (hflag.symm.trans hsuper)
              simp [rotates, hgate, htarget, hold, Except.toOption]

/-- While no other administrator asks to rotate a superuser's key, superusers' keys
are handed to superusers only. -/
theorem superuser_keys_to_superusers {s : Management} {events : List ManagementEvent}
    (h : Along (Management.step auth digest hashKey) (Contained auth) s events) :
    Along (Management.step auth digest hashKey)
      (fun s e => SuperusersOnly hashKey (Management.step auth digest hashKey s e)) s events :=
  h.imp fun _ _ hcontained => superusersOnly_step hcontained

def opsTenant : Uuid := Uuid.repeated 'd' (.refl true)

def opsRow : TenantRow := .live opsTenant "ops" "Operations" .project .int

def opsAuth : AdminAuth := ⟨some "root", "admin", sharedManager⟩

def opsToken : Jwt.Token where
  header := ⟨.hs256, none⟩
  payload := (sharedManager.claims 0 "alice" opsTenant.toString ["admin"] 3600 false).payload
  signature := some (.hmac sharedManager.secret)

def opsWorld : AdminWorld where
  texts := fun text => if text = "token" then some opsToken else none
  now := 0
  revocation := none

def opsKeys : Management where
  backend := .database (.singleton opsRow) .empty
  signing := none
  invitations := .empty

def opsHash (rawKey : String) : List UInt8 := rawKey.toList.map fun c => UInt8.ofNat c.toNat

def opsCreate (isSuperuser : Bool) : ManagementEvent :=
  .manage opsWorld [("x-admin-token", "root")]
    (.create ⟨"platform", opsTenant.toString, none, none, none, none, isSuperuser, false⟩)
    ⟨[1], Uuid.repeated '1' (.refl true), 0⟩

def opsRotate : ManagementEvent :=
  .manage opsWorld [("authorization", "Bearer token")]
    (.rotate (Uuid.repeated '1' (.refl true)).toString) ⟨[2], Uuid.repeated '2' (.refl true), 0⟩

/-- The administrator of the tenant holds a superuser's key after it. -/
theorem superuser_key_rotated_out : ∃ response record,
      (trace (Management.step opsAuth id opsHash) opsKeys [opsCreate true, opsRotate])[1]? =
        some (opsRotate, ⟨some ⟨"alice", some opsTenant.toString, false⟩,
          .ok (.created response)⟩) ∧
      ApiKeyManager.findByHash
        (run (Management.step opsAuth id opsHash) opsKeys [opsCreate true, opsRotate]).backend
        (opsHash response.key) = some record ∧
      record.isSuperuser = true :=
  ⟨_, _, rfl, rfl, rfl⟩

theorem plain_key_rotated : Along (Management.step opsAuth id opsHash)
      (fun s e => SuperusersOnly opsHash (Management.step opsAuth id opsHash s e)) opsKeys
      [opsCreate false, opsRotate] := by
  refine superuser_keys_to_superusers ⟨?_, ?_, trivial⟩
  · intro identity record h
    cases h
  · intro identity record h hsuper
    obtain ⟨old, hold, hflag⟩ : ∃ old, rotates opsAuth
        (Management.step opsAuth id opsHash opsKeys (opsCreate false)).1 opsRotate = some old ∧
        old.2.isSuperuser = false := ⟨_, rfl, rfl⟩
    cases hold.symm.trans h
    exact absurd (hflag.symm.trans hsuper) (by simp)

end WslVault.IdentityService
