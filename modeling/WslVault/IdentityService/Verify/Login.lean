import WslVault.IdentityService.Verify.KeyRecords
import WslVault.IdentityService.Verify.PathPrefixes

/-!
# What a turn of a login does

All that a request can do in a turn is said once: where it goes on to and what it leaves
(`Goes`), and how it ends (`Ends`). The results about logins speak of the notes of a run
(`notes`).
-/

namespace WslVault.IdentityService.Login

open Core Base Storage

def Request.rawKey : Request → Option String
  | exchange rawKey => some rawKey
  | enroll rawKey => some rawKey
  | confirm rawKey _ => some rawKey
  | recoveryCodes rawKey _ => some rawKey
  | verify _ _ => none
  | revoke _ _ => none
  | rotate _ _ => none

def Phase.pending : Phase → Option PendingChallenge
  | taken pending => some pending
  | proving pending _ => some pending
  | missed pending => some pending
  | consumed pending _ => some pending
  | accepted pending _ => some pending
  | _ => none

namespace LoginSystem

section Turns

variable (svc : Service) (sys : LoginSystem) (others : List (Request × Phase)) (m : Moment)

inductive Goes : Request → Phase → LoginSystem → Phase → Prop where
  | read {request rawKey backend result} (hkey : request.rawKey = some rawKey)
      (hvalid : ApiKeyManager.validateKey svc.hashKey m.now sys.backend rawKey =
        .ok (backend, result)) :
      Goes request .start sys (.touching result)
  | readMemory {request rawKey backend result} (hkey : request.rawKey = some rawKey)
      (hmemory : sys.hasDatabase = false)
      (hvalid : ApiKeyManager.validateKey svc.hashKey m.now sys.backend rawKey =
        .ok (backend, result)) :
      Goes request .start { sys with backend := backend } (.validated result)
  | touch {request result tenants keys} (tenantId : Uuid)
      (hbackend : sys.backend = .database tenants keys) :
      Goes request (.touching result)
        { sys with
          backend := .database tenants
            (ApiKeyStore.touchLastUsed keys m.now result.keyId tenantId) }
        (.validated result)
  | untouched {request result} :
      Goes request (.touching result) sys (.validated result)
  | challenge {rawKey result}
      (hmfa : result.mfaRequired = true) :
      Goes (.exchange rawKey) (.validated result) sys (.challenging (pendingOf result m.now))
  | grant {rawKey result}
      (hmfa : result.mfaRequired = false) :
      Goes (.exchange rawKey) (.validated result) sys (.granting result)
  | take {id code pending}
      (hheld : sys.challenges.lookup id = some pending)
      (hlive : Jwt.unix m.now < pending.expiresAt) :
      Goes (.verify id code) .start { sys with challenges := sys.challenges.erase id }
        (.taken pending)
  | found {id code secret pending}
      (hsecret : sys.enrolmentSecret svc m verifyUse pending.tenantId pending.apiKeyId =
        .ok secret) :
      Goes (.verify id code) (.taken pending) sys (.proving pending secret)
  | missed {id code secret pending} :
      Goes (.verify id code) (.proving pending secret) sys (.missed pending)
  | consume {id code secret pending factor}
      (hproof : sys.prove svc others m pending.apiKeyId secret code = .matched factor) :
      Goes (.verify id code) (.proving pending secret) sys (.consumed pending factor)
  | accept {id code pending factor} :
      Goes (.verify id code) (.consumed pending factor)
        { sys with mfa := spend sys.mfa m.now pending.apiKeyId factor } (.accepted pending factor)
  | confirming {rawKey code secret result} :
      Goes (.confirm rawKey code) (.validated result) sys (.confirming result secret)
  | confirmed {rawKey code secret result step}
      (hcode : Mfa.verifyCode svc.hotp secret code (Jwt.unix m.now) = some step)
      (hfree : blocked others (.totp result.keyId) = false) :
      Goes (.confirm rawKey code) (.confirming result secret) sys (.confirmed result step)
  | reproving {rawKey code secret result} :
      Goes (.recoveryCodes rawKey code) (.validated result) sys (.reproving result secret)
  | reproved {rawKey code secret result factor}
      (hproof : sys.prove svc others m result.keyId secret code = .matched factor) :
      Goes (.recoveryCodes rawKey code) (.reproving result secret) sys (.reproved result factor)
  | replaced {rawKey code result factor codes}
      (hfree : blocked others (.allCodes result.keyId) = false) :
      Goes (.recoveryCodes rawKey code) (.reproved result factor) sys
        (.replaced result factor codes)
  | upserted {rawKey wrapped secret result}
      (hfree : blocked others (.totp result.keyId) = false) :
      Goes (.enroll rawKey) (.validated result) sys (.upserted result wrapped secret)
  | recoded {rawKey wrapped secret result codes}
      (hfree : blocked others (.allCodes result.keyId) = false) :
      Goes (.enroll rawKey) (.upserted result wrapped secret) sys
        (.recoded result wrapped secret codes)
  | rotating {keyId tenantId old}
      (hold : ApiKeyManager.findById sys.backend keyId tenantId = .ok old) :
      Goes (.rotate keyId tenantId) .start sys (.rotating old)
  | replacing {keyId tenantId old backend}
      (hrevoke : ApiKeyManager.revokeKey m.now sys.backend keyId tenantId = .ok backend) :
      Goes (.rotate keyId tenantId) (.rotating old) { sys with backend := backend }
        (.replacing old)

def Response.Or (expected reply : Response) : Prop := reply = expected ∨ ∃ e, reply = .refused e

inductive Ends : Request → Phase → LoginSystem → Response → Prop where
  | refused {request phase e} :
      Ends request phase sys (.refused e)
  | issued {rawKey pending} :
      Ends (.exchange rawKey) (.challenging pending)
        { sys with
          challenges := Mfa.issue sys.challenges m.now m.challengeId.toString pending }
        (.challenge m.challengeId.toString)
  | unsigned {request phase keys e} :
      Ends request phase { sys with signingKeys := keys } (.refused e)
  | token {rawKey result keys response}
      (hissue : issueResponse svc.state m.now sys.signingKeys m.keyDraw result.keyId
        result.tenantId result.policies result.isSuperuser = (keys, .ok response)) :
      Ends (.exchange rawKey) (.granting result) { sys with signingKeys := keys }
        (.token response)
  | unknown {id code e} :
      Ends (.verify id code) .start { sys with challenges := sys.challenges.erase id }
        (.refused e)
  | spent {id code pending factor e} : Ends (.verify id code) (.consumed pending factor)
        { sys with mfa := spend sys.mfa m.now pending.apiKeyId factor } (.refused e)
  | proven {id code pending factor keys response}
      (hissue : issueResponse svc.state m.now sys.signingKeys m.keyDraw pending.apiKeyId
        pending.tenantId pending.policies pending.superuser = (keys, .ok response)) :
      Ends (.verify id code) (.accepted pending factor) { sys with signingKeys := keys }
        (.token response)
  | confirmed {rawKey code result step reply} (hreply : Response.Or .confirmed reply) :
      Ends (.confirm rawKey code) (.confirmed result step)
        { sys with
          mfa := MfaStore.confirm sys.mfa m.now result.keyId step
          backend := requireMfa sys.backend result.keyId }
        reply
  | reissued {rawKey code result factor codes mfa reply}
      (hcodes : recode svc (spend sys.mfa m.now result.keyId factor) result codes = some mfa)
      (hreply : Response.Or (.codes codes) reply) :
      Ends (.recoveryCodes rawKey code) (.replaced result factor codes) { sys with mfa := mfa }
        reply
  | enrolled {rawKey wrapped secret result codes started mfa reply}
      (hpending : pendingTables sys.mfa result wrapped = some started)
      (hcodes : recode svc started result codes = some mfa)
      (hreply : Response.Or (.enrolled secret codes) reply) :
      Ends (.enroll rawKey) (.recoded result wrapped secret codes) { sys with mfa := mfa } reply
  | revoked {keyId tenantId backend reply}
      (hrevoke : ApiKeyManager.revokeKey m.now sys.backend keyId tenantId = .ok backend)
      (hreply : Response.Or .revoked reply) :
      Ends (.revoke keyId tenantId) .start { sys with backend := backend } reply
  | unreplaced {keyId tenantId old backend e}
      (hrevoke : ApiKeyManager.revokeKey m.now sys.backend keyId tenantId = .ok backend) :
      Ends (.rotate keyId tenantId) (.rotating old) { sys with backend := backend } (.refused e)
  | rotated {keyId tenantId old backend response reply}
      (hcreate : ApiKeyManager.createKey svc.hashKey m.draw sys.backend
        (ApiKeyManager.rotationRequest old tenantId) old.createdBy = .ok (backend, response))
      (hreply : Response.Or (.rotated response) reply) :
      Ends (.rotate keyId tenantId) (.replacing old) { sys with backend := backend } reply

/-! ## The handlers one by one -/

inductive Does (request : Request) (phase : Phase) : LoginTurn → Prop where
  | wait : Does request phase .wait
  | goOn {sys' next} (h : Goes svc sys others m request phase sys' next) :
      Does request phase (.goOn sys' next)
  | finish {sys' reply}
      (h : Ends svc sys m request phase sys' reply) : Does request phase (.finish sys' reply)

variable {svc sys others m} {request : Request} {phase next : Phase} {factor : Factor}
  {codes : List String} {id rawKey tenantId code secret wrapped : String} {keyId : Uuid}
  {result : ApiKeyValidationResult} {pending : PendingChallenge} {sys' : LoginSystem}
  {reply : Response}

theorem does_refuse {status : Nat} {message : String} :
    Does svc sys others m request phase (refuse sys status message) := .finish .refused

theorem does_uncommitted {committed : LoginSystem} {message : String}
    (h : ∀ e, Ends svc sys m request phase committed (.refused e)) :
    Does svc sys others m request phase (sys.uncommitted m committed message) := by
  unfold uncommitted
  split
  · exact .finish (h _)
  · exact .finish .refused

theorem does_validate (hkey : request.rawKey = some rawKey) :
    Does svc sys others m request .start (sys.validate svc m rawKey) := by
  unfold validate
  cases hdatabase : sys.hasDatabase with
  | true =>
    split
    · exact .finish .refused
    · exact .finish .refused
    · exact .finish .refused
    · split
      · exact .finish .refused
      · next hvalid =>
        split
        · exact .goOn (.read hkey hvalid)
        · contradiction
  | false =>
    split
    · exact .finish .refused
    · exact .finish .refused
    · exact .finish .refused
    · split
      · exact .finish .refused
      · next hvalid =>
        split
        · contradiction
        · exact .goOn (.readMemory hkey hdatabase hvalid)

theorem does_touch : Does svc sys others m request (.touching result) (sys.touch m result) := by
  unfold touch
  split
  · next hbackend _ => exact .goOn (.touch _ hbackend)
  · exact .goOn .untouched

theorem does_exchangeValidated : Does svc sys others m (.exchange rawKey) (.validated result)
      (sys.exchangeValidated m result) := by
  unfold exchangeValidated
  split
  · next hmfa =>
    split
    · exact .goOn (.challenge hmfa)
    · exact does_refuse
    · exact does_refuse
  · next hmfa => exact .goOn (.grant (Bool.not_eq_true _ ▸ hmfa))

theorem does_grant {policies : List String} {superuser : Bool}
    (h : ∀ keys response, issueResponse svc.state m.now sys.signingKeys m.keyDraw keyId tenantId
      policies superuser = (keys, .ok response) →
      Ends svc sys m request phase { sys with signingKeys := keys } (.token response)) :
    Does svc sys others m request phase (sys.grant svc m keyId tenantId policies superuser) := by
  unfold grant
  dsimp only
  split
  · exact .finish .unsigned
  · next hdone => exact .finish (h _ _ (Prod.ext rfl hdone))

theorem does_withSecret {use : EnrolmentUse} {apiKeyId : Uuid}
    {next : String → Phase} (h : ∀ secret, sys.enrolmentSecret svc m use tenantId apiKeyId =
      .ok secret → Goes svc sys others m request phase sys (next secret)) :
    Does svc sys others m request phase (sys.withSecret svc m use tenantId apiKeyId next) := by
  unfold withSecret
  split
  · exact .finish .refused
  · next hsecret => exact .goOn (h _ hsecret)

theorem does_verifyStart :
    Does svc sys others m (.verify id code) .start (sys.verifyStart m id) := by
  unfold verifyStart
  dsimp only
  split
  · exact .finish .unknown
  · next pending htaken =>
    obtain ⟨hheld, hlive⟩ := Option.filter_eq_some_iff.mp htaken
    exact .goOn (.take hheld (of_decide_eq_true hlive))

theorem does_verifyProving : Does svc sys others m (.verify id code) (.proving pending secret)
      (sys.verifyProving svc others m code pending secret) := by
  unfold verifyProving
  split
  · split
    · exact .wait
    · exact .goOn .missed
    · next hproof => exact .goOn (.consume hproof)
  · exact does_refuse

theorem does_verifyMissed :
    Does svc sys others m (.verify id code) (.missed pending) (sys.verifyMissed m) := by
  unfold verifyMissed
  split <;> exact does_refuse

theorem does_verifyConsumed : Does svc sys others m (.verify id code) (.consumed pending factor)
      (sys.verifyConsumed m pending factor) := by
  unfold verifyConsumed
  dsimp only
  split
  · exact does_uncommitted fun _ => .spent
  · exact .goOn .accept

theorem does_confirmConfirming :
    Does svc sys others m (.confirm rawKey code) (.confirming result secret)
      (sys.confirmConfirming svc others m code result secret) := by
  unfold confirmConfirming
  split
  · exact does_refuse
  · next hcode =>
    split
    · split
      · exact .wait
      · next hfree => exact .goOn (.confirmed hcode (Bool.not_eq_true _ ▸ hfree))
    · exact does_refuse

theorem does_confirmConfirmed {step : Int} :
    Does svc sys others m (.confirm rawKey code) (.confirmed result step)
      (sys.confirmConfirmed m result step) := by
  unfold confirmConfirmed
  dsimp only
  split
  · exact does_uncommitted fun e => .confirmed (.inr ⟨e, rfl⟩)
  · exact .finish (.confirmed (.inl rfl))

theorem does_recoveryValidated :
    Does svc sys others m (.recoveryCodes rawKey code) (.validated result)
      (sys.recoveryValidated svc m result) := by
  unfold recoveryValidated
  split
  · exact does_refuse
  · exact does_withSecret fun _ _ => .reproving

theorem does_recoveryReproving :
    Does svc sys others m (.recoveryCodes rawKey code) (.reproving result secret)
      (sys.recoveryReproving svc others m code result secret) := by
  unfold recoveryReproving
  split
  · exact does_refuse
  · split
    · exact .wait
    · exact does_refuse
    · next hproof => exact .goOn (.reproved hproof)

theorem does_replaceCodes {mfa : MfaTables} {failed : String} {next : List String → Phase}
    (h : ∀ codes, blocked others (.allCodes result.keyId) = false →
      Goes svc sys others m request phase sys (next codes)) :
    Does svc sys others m request phase (sys.replaceCodes svc others m mfa result failed next) := by
  unfold replaceCodes
  split
  · exact does_refuse
  · split
    · split
      · exact .wait
      · next hfree => exact .goOn (h _ (Bool.not_eq_true _ ▸ hfree))
    · exact does_refuse

theorem does_recoveryReplaced :
    Does svc sys others m (.recoveryCodes rawKey code) (.replaced result factor codes)
      (sys.recoveryReplaced svc m result factor codes) := by
  unfold recoveryReplaced
  split
  · exact does_refuse
  · next hcodes =>
    split
    · exact does_uncommitted fun e => .reissued hcodes (.inr ⟨e, rfl⟩)
    · exact .finish (.reissued hcodes (.inl rfl))

theorem does_enrollValidated : Does svc sys others m (.enroll rawKey) (.validated result)
      (sys.enrollValidated svc others m result) := by
  unfold enrollValidated
  split
  · exact does_refuse
  · exact does_refuse
  · split
    · exact does_refuse
    · exact does_refuse
    · exact does_refuse
    · split
      · exact .wait
      · next hfree =>
        split
        · exact does_refuse
        · exact .goOn (.upserted (Bool.not_eq_true _ ▸ hfree))
  · exact does_refuse

theorem does_enrollUpserted :
    Does svc sys others m (.enroll rawKey) (.upserted result wrapped secret)
      (sys.enrollUpserted svc others m result wrapped secret) := by
  unfold enrollUpserted
  split
  · exact does_refuse
  · exact does_replaceCodes fun _ h => .recoded h

theorem does_enrollRecoded :
    Does svc sys others m (.enroll rawKey) (.recoded result wrapped secret codes)
      (sys.enrollRecoded svc m result wrapped secret codes) := by
  unfold enrollRecoded
  split
  · exact does_refuse
  · next hmfa =>
    obtain ⟨started, hpending, hcodes⟩ := Option.bind_eq_some_iff.mp hmfa
    split
    · exact does_uncommitted fun e => .enrolled hpending hcodes (.inr ⟨e, rfl⟩)
    · exact .finish (.enrolled hpending hcodes (.inl rfl))

/-- A revocation goes on as `next` does; one whose answer is lost ends as `lost` says. -/
theorem does_revokeThen {next : LoginSystem → LoginTurn}
    (hnext : ∀ backend, ApiKeyManager.revokeKey m.now sys.backend keyId tenantId = .ok backend →
      Does svc sys others m request phase (next { sys with backend := backend }))
    (hlost : ∀ backend e, ApiKeyManager.revokeKey m.now sys.backend keyId tenantId = .ok backend →
      Ends svc sys m request phase { sys with backend := backend } (.refused e)) :
    Does svc sys others m request phase (sys.revokeThen m keyId tenantId next) := by
  unfold revokeThen
  split
  · exact .finish .refused
  · next hrevoke _ => exact hnext _ hrevoke
  · exact .finish .refused
  · next hrevoke _ =>
    split
    · exact .finish (hlost _ _ hrevoke)
    · exact .finish .refused

theorem does_rotateStart :
    Does svc sys others m (.rotate keyId tenantId) .start (sys.rotateStart m keyId tenantId) := by
  unfold rotateStart
  split
  · next hold _ => exact .goOn (.rotating hold)
  · exact .finish .refused
  · exact .finish .refused

theorem does_rotateReplacing {old : ApiKeyRecord} :
    Does svc sys others m (.rotate keyId tenantId) (.replacing old)
      (sys.rotateReplacing svc m tenantId old) := by
  unfold rotateReplacing
  split
  · next hcreate _ => exact .finish (.rotated hcreate (.inl rfl))
  · exact .finish .refused
  · next hcreate _ =>
    split
    · exact .finish (.rotated hcreate (.inr ⟨_, rfl⟩))
    · exact .finish .refused
  · exact .finish .refused

variable (svc sys others m) in
theorem advance_ensures (request : Request) (phase : Phase) :
    Does svc sys others m request phase (sys.advance svc others m request phase) := by
  unfold advance
  cases request with
  | exchange rawKey =>
    cases phase with
    | start => exact does_validate rfl
    | touching result => exact does_touch
    | validated result => exact does_exchangeValidated
    | challenging pending => exact .finish .issued
    | granting result => exact does_grant fun _ _ h => .token h
    | _ => exact .wait
  | verify id code =>
    cases phase with
    | start => exact does_verifyStart
    | taken pending => exact does_withSecret fun _ h => .found h
    | proving pending secret => exact does_verifyProving
    | missed pending => exact does_verifyMissed
    | consumed pending factor => exact does_verifyConsumed
    | accepted pending factor => exact does_grant fun _ _ h => .proven h
    | _ => exact .wait
  | enroll rawKey =>
    cases phase with
    | start => exact does_validate rfl
    | touching result => exact does_touch
    | validated result => exact does_enrollValidated
    | upserted result wrapped secret => exact does_enrollUpserted
    | recoded result wrapped secret codes => exact does_enrollRecoded
    | _ => exact .wait
  | confirm rawKey code =>
    cases phase with
    | start => exact does_validate rfl
    | touching result => exact does_touch
    | validated result => exact does_withSecret fun _ _ => .confirming
    | confirming result secret => exact does_confirmConfirming
    | confirmed result step => exact does_confirmConfirmed
    | _ => exact .wait
  | recoveryCodes rawKey code =>
    cases phase with
    | start => exact does_validate rfl
    | touching result => exact does_touch
    | validated result => exact does_recoveryValidated
    | reproving result secret => exact does_recoveryReproving
    | reproved result factor => exact does_replaceCodes fun _ h => .replaced h
    | replaced result factor codes => exact does_recoveryReplaced
    | _ => exact .wait
  | revoke keyId tenantId =>
    cases phase with
    | start =>
      exact does_revokeThen (fun _ h => .finish (.revoked h (.inl rfl)))
        fun _ e h => .revoked h (.inr ⟨e, rfl⟩)
    | _ => exact .wait
  | rotate keyId tenantId =>
    cases phase with
    | start => exact does_rotateStart
    | rotating old =>
      exact does_revokeThen (fun _ h => .goOn (.replacing h)) fun _ _ h => .unreplaced h
    | replacing old => exact does_rotateReplacing
    | _ => exact .wait

theorem goes_of_advance (h : sys.advance svc others m request phase = .goOn sys' next) :
    Goes svc sys others m request phase sys' next := by
  have hdoes := advance_ensures svc sys others m request phase
  rw [h] at hdoes
  cases hdoes with
  | goOn h => exact h

theorem ends_of_advance (h : sys.advance svc others m request phase = .finish sys' reply) :
    Ends svc sys m request phase sys' reply := by
  have hdoes := advance_ensures svc sys others m request phase
  rw [h] at hdoes
  cases hdoes with
  | finish h => exact h

theorem Goes.keeps (h : Goes svc sys others m request phase sys' next) :
    Backend.Keeps sys.backend sys'.backend := by
  cases h with
  | readMemory _ _ hvalid => exact keeps_validateKey hvalid
  | touch tenantId hbackend =>
    rw [hbackend]
    exact keeps_touchLastUsed _ _ _ _ _
  | replacing hrevoke => exact keeps_revokeKey hrevoke
  | _ => exact .refl _

variable (h : Ends svc sys m request phase sys' reply)

include h

theorem Ends.keeps_of_ne (hrequest : ∀ keyId tenantId, request ≠ .rotate keyId tenantId) :
    Backend.Keeps sys.backend sys'.backend := by
  cases h with
  | confirmed => exact keeps_requireMfa _ _
  | revoked hrevoke => exact keeps_revokeKey hrevoke
  | unreplaced => exact absurd rfl (hrequest _ _)
  | rotated => exact absurd rfl (hrequest _ _)
  | _ => exact .refl _

theorem Ends.held {pending : PendingChallenge}
    (hlookup : sys'.challenges.lookup id = some pending) :
    sys.challenges.lookup id = some pending ∨
      ∃ rawKey, request = .exchange rawKey ∧ phase = .challenging pending ∧
        reply = .challenge id := by
  cases h with
  | @issued rawKey =>
    obtain ⟨rfl, rfl⟩ | ⟨-, hlookup⟩ := lookup_insert_cases hlookup
    · exact .inr ⟨rawKey, rfl, rfl, rfl⟩
    · exact .inl (lookup_retain_eq_some.mp hlookup).1
  | unknown => exact .inl (lookup_of_lookup_erase hlookup).2
  | _ => exact .inl hlookup

variable (hfresh : sys.backend.freshId m.draw.id = true)
include hfresh

theorem Ends.keeps_or_adds :
    Backend.Keeps sys.backend sys'.backend ∨ ∃ r, Backend.Adds sys.backend sys'.backend r := by
  cases h with
  | confirmed => exact .inl (keeps_requireMfa _ _)
  | revoked hrevoke => exact .inl (keeps_revokeKey hrevoke)
  | unreplaced hrevoke => exact .inl (keeps_revokeKey hrevoke)
  | rotated hcreate =>
    obtain ⟨r, hadds⟩ := createKey_adds hcreate hfresh
    exact .inr ⟨r, hadds⟩
  | _ => exact .inl (.refl _)

theorem Ends.wellFormed (hwf : sys.backend.WellFormed) : sys'.backend.WellFormed := by
  rcases h.keeps_or_adds hfresh with hkeeps | ⟨r, hadds⟩
  · exact hkeeps.wellFormed hwf
  · exact hadds.wellFormed hwf

theorem Ends.revoked_of_revoked (hrevoked : sys.backend.Revoked keyId) :
    sys'.backend.Revoked keyId := by
  rcases h.keeps_or_adds hfresh with hkeeps | ⟨r, hadds⟩
  · exact hrevoked.keeps hkeeps
  · exact hrevoked.adds hadds

end Turns

end LoginSystem

/-! ## What is noted of a run -/

def Service.keyOf (svc : Service) (sys : LoginSystem) (request : Request) : Option ApiKeyRecord :=
  request.rawKey.bind fun rawKey => ApiKeyManager.findByHash sys.backend (svc.hashKey rawKey)

/-- The rows of a key in the tables of the second factor. -/
structure FactorRows where
  enrolment : Option TotpEnrolment
  codes : List RecoveryCode
  deriving DecidableEq

def factorRows (mfa : MfaTables) (apiKeyId : Uuid) : FactorRows where
  enrolment := MfaStore.find mfa apiKeyId
  codes := mfa.codes.select (·.apiKeyId == apiKeyId)

/-- What a request does that others can see, with its session. -/
inductive Note where
  /-- The key that the request comes with is noted as it is then. -/
  | arrived (i : Nat) (request : Request) (key : Option ApiKeyRecord)
  /-- A login has read its key. -/
  | validated (i : Nat) (key : ApiKeyRecord)
  | challenged (i : Nat) (pending : PendingChallenge) (now : Timestamp)
  | issued (i : Nat) (id : String) (pending : PendingChallenge)
  | took (i : Nat) (id : String) (pending : PendingChallenge) (now : Timestamp)
  /-- The enrolment whose secret a login has unwrapped. -/
  | enrolment (i : Nat) (enrolment : Option TotpEnrolment)
  /-- The code of a login was found to be this factor. -/
  | proved (i : Nat) (code secret : String) (factor : Factor) (now : Timestamp)
  /-- A login's factor was accepted, with the rows of the key before and after the commit. -/
  | accepted (i : Nat) (apiKeyId : Uuid) (factor : Factor) (before after : FactorRows)
  /-- The factor of a request for new recovery codes was accepted. -/
  | reissued (i : Nat) (apiKeyId : Uuid) (factor : Factor)
  | token (i : Nat) (apiKeyId : Uuid) (response : ApiKeyAuthResponse)
  | revoked (apiKeyId : Uuid)
  deriving DecidableEq

namespace Note

def went (svc : Service) (sys sys' : LoginSystem) (i : Nat) (m : Moment) :
    Request → Phase → Phase → Option Note
  | .exchange rawKey, .start, _ => (svc.keyOf sys (.exchange rawKey)).map (validated i)
  | .exchange _, _, .challenging pending => some (challenged i pending m.now)
  | .verify id _, _, .taken pending => some (took i id pending m.now)
  | .verify _ _, _, .proving pending _ =>
    some (enrolment i (MfaStore.find sys.mfa pending.apiKeyId))
  | .verify _ code, .proving _ secret, .consumed _ factor =>
    some (proved i code secret factor m.now)
  | .verify _ _, _, .accepted pending factor =>
    some (accepted i pending.apiKeyId factor (factorRows sys.mfa pending.apiKeyId)
      (factorRows sys'.mfa pending.apiKeyId))
  | _, _, _ => none

def ended (i : Nat) : Request → Phase → Response → Option Note
  | .exchange _, .challenging pending, .challenge id => some (issued i id pending)
  | .exchange _, .granting result, .token response => some (token i result.keyId response)
  | .verify _ _, .accepted pending _, .token response => some (token i pending.apiKeyId response)
  | .recoveryCodes _ _, .replaced result factor _, .codes _ =>
    some (reissued i result.keyId factor)
  | .revoke keyId _, _, .revoked => some (revoked keyId)
  | .rotate keyId _, _, .rotated _ => some (revoked keyId)
  | _, _, _ => none

def ofHappening (svc : Service) (sys : LoginSystem) :
    Tasks.Happening LoginSystem Request Phase Moment Response → Option Note
  | .arrived i request => some (arrived i request (svc.keyOf sys request))
  | .went i m request phase sys' next => went svc sys sys' i m request phase next
  | .ended i _ request phase _ reply => ended i request phase reply

variable (svc : Service) (sys sys' : LoginSystem) (i : Nat) (m : Moment) in
inductive Went : Request → Phase → Phase → Note → Prop where
  | validated {rawKey phase next key} (h : svc.keyOf sys (.exchange rawKey) = some key) :
      Went (.exchange rawKey) phase next (.validated i key)
  | challenged {rawKey phase pending} : Went (.exchange rawKey) phase (.challenging pending)
        (.challenged i pending m.now)
  | took {id code phase pending} :
      Went (.verify id code) phase (.taken pending) (.took i id pending m.now)
  | enrolment {id code phase pending secret} :
      Went (.verify id code) phase (.proving pending secret)
        (.enrolment i (MfaStore.find sys.mfa pending.apiKeyId))
  | proved {id code pending pending' secret factor} :
      Went (.verify id code) (.proving pending secret) (.consumed pending' factor)
        (.proved i code secret factor m.now)
  | accepted {id code phase pending factor} :
      Went (.verify id code) phase (.accepted pending factor)
        (.accepted i pending.apiKeyId factor (factorRows sys.mfa pending.apiKeyId)
          (factorRows sys'.mfa pending.apiKeyId))

inductive Ended (i : Nat) : Request → Phase → Response → Note → Prop where
  | issued {rawKey id pending} :
      Ended i (.exchange rawKey) (.challenging pending) (.challenge id) (.issued i id pending)
  | granted {rawKey result response} :
      Ended i (.exchange rawKey) (.granting result) (.token response)
        (.token i result.keyId response)
  | proven {id code pending factor response} :
      Ended i (.verify id code) (.accepted pending factor) (.token response)
        (.token i pending.apiKeyId response)
  | reissued {rawKey code result factor codes codes'} :
      Ended i (.recoveryCodes rawKey code) (.replaced result factor codes) (.codes codes')
        (.reissued i result.keyId factor)
  | revoked {keyId tenantId phase} :
      Ended i (.revoke keyId tenantId) phase .revoked (.revoked keyId)
  | rotated {keyId tenantId phase response} :
      Ended i (.rotate keyId tenantId) phase (.rotated response) (.revoked keyId)

variable {i : Nat} {request : Request} {phase next : Phase} {reply : Response} {n : Note}
  {svc : Service} {sys sys' : LoginSystem} {m : Moment}

theorem went_of_eq (h : went svc sys sys' i m request phase next = some n) :
    Went svc sys sys' i m request phase next n := by
  unfold went at h
  split at h
  · obtain ⟨key, hkey, rfl⟩ := Option.map_eq_some_iff.mp h
    exact .validated hkey
  all_goals cases h
  · exact .challenged
  · exact .took
  · exact .enrolment
  · exact .proved
  · exact .accepted

theorem ended_of_eq (h : ended i request phase reply = some n) : Ended i request phase reply n := by
  unfold ended at h
  split at h <;> cases h
  · exact .issued
  · exact .granted
  · exact .proven
  · exact .reissued
  · exact .revoked
  · exact .rotated

def arrival : Note → Option Nat
  | arrived i _ _ => some i
  | _ => none

theorem arrival_went (h : went svc sys sys' i m request phase next = some n) (j : Nat) :
    n.arrival ≠ some j := by
  cases went_of_eq h <;> rintro ⟨⟩

theorem arrival_ended (h : ended i request phase reply = some n) (j : Nat) :
    n.arrival ≠ some j := by
  cases ended_of_eq h <;> rintro ⟨⟩

end Note

open LoginSystem

def note (svc : Service) (s : LoginSessions) (e : Event) : Option Note :=
  (Tasks.happens (fun sys others m request phase => sys.advance svc others m request phase)
    s e).bind (Note.ofHappening svc s.db)

def notes (svc : Service) (s : LoginSessions) (events : List Event) : List Note :=
  gather (step svc) (note svc) s events

/-- What an event does, with what is noted of it. -/
inductive Noted (svc : Service) (s : LoginSessions) :
    Event → Option Note → LoginSessions → Prop where
  | same {e} : Noted svc s e none s
  | dropped {e} (i : Nat) :
      Noted svc s e none ⟨s.db, s.current.erase i⟩
  | arrived {i request} (hi : s.current.lookup i = none) :
      Noted svc s (.arrive i request) (some (.arrived i request (svc.keyOf s.db request)))
        ⟨s.db, s.current.insert i (request, .start)⟩
  | went {i m request phase next sys} (hi : s.current.lookup i = some (request, phase))
      (hgoes : Goes svc s.db (s.others i) m request phase sys next) :
      Noted svc s (.resume i m) (Note.went svc s.db sys i m request phase next)
        ⟨sys, s.current.insert i (request, next)⟩
  | ended {i m request phase sys reply} (hi : s.current.lookup i = some (request, phase))
      (hends : Ends svc s.db m request phase sys reply) :
      Noted svc s (.resume i m) (Note.ended i request phase reply) ⟨sys, s.current.erase i⟩

/-- Every step is of one of the kinds that are noted. -/
theorem step_noted (svc : Service) (s : LoginSessions)
    (e : Event) : Noted svc s e (note svc s e) (step svc s e).1 := by
  rw [note, step]
  rcases Tasks.step_happens .start
      (fun sys others m request phase => LoginSystem.advance svc sys others m request phase) s e
    with ⟨hnone, -, hsame | ⟨i, hsame⟩⟩ | ⟨i, request, hnote, rfl, hi, hstep⟩ |
      ⟨i, m, request, phase, sys, next, hnote, rfl, hi, hadvance, hstep⟩ |
      ⟨i, m, request, phase, sys, reply, hnote, rfl, hi, hadvance, hstep⟩
  · rw [hnone, hsame]
    exact .same
  · rw [hnone, hsame]
    exact .dropped i
  · rw [hnote, hstep]
    exact .arrived hi
  · rw [hnote, hstep]
    exact .went hi (goes_of_advance hadvance)
  · rw [hnote, hstep]
    exact .ended hi (ends_of_advance hadvance)

def phoneKey : ApiKeyRow := { teamKey with mfaRequired := true }

def phoneTotp (lastUsedStep : Int) : TotpEnrolment :=
  ⟨phoneKey.id, ciTenant, "", lastUsedStep, some 0⟩

def phoneSystem : LoginSystem where
  backend := .database (.singleton ciRow) (.singleton phoneKey)
  mfa := ⟨.singleton (phoneTotp 3), .empty⟩
  challenges := ∅
  signingKeys := none

def phoneService : Service where
  hashKey := fun _ => [1]
  state := teamState
  crypto := some ⟨fun _ _ _ => .ok "", fun _ _ _ => .ok ""⟩
  hotp := fun _ step => toString step
  sha256 := id

variable (challengeId : Uuid)

def phoneMoment : Moment where
  now := seconds 150
  failure := none
  took := false
  challengeId := challengeId
  secret := none
  codes := none
  draw := ⟨[], Uuid.repeated 'e' (.refl true), seconds 150⟩
  keyDraw := ⟨[], ciTenant, seconds 150⟩

def phoneTurns (request : Request) : List Event :=
  .arrive 1 request :: List.replicate 5 (.resume 1 (phoneMoment challengeId))

def phoneLogin (code : String) : List Event :=
  phoneTurns challengeId (.exchange "wslv_key") ++
    phoneTurns challengeId (.verify challengeId.toString code)

def phoneConfirm (code : String) : List Event :=
  phoneTurns ciTenant (.confirm "wslv_key" code)

def phoneResponse : ApiKeyAuthResponse where
  token :=
    { header := ⟨.hs256, none⟩
      payload := (sharedManager.claims (seconds 150) phoneKey.id.toString ciTenant.toString
        ["reader"] 3600 false).payload
      signature := some (.hmac sharedManager.secret) }
  expiresAt := seconds 3750
  tenantId := ciTenant.toString
  policies := ["reader"]

end WslVault.IdentityService.Login
