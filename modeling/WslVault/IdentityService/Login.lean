import WslVault.Base.Tasks
import WslVault.IdentityService.Mfa
import WslVault.Storage.MfaStore

/-!
# Logins with a second factor

The handlers of `services/identity-service/src/api_keys.rs` that exchange a key for a token,
enrol and confirm an authenticator, complete a login with a code, and reissue recovery codes,
with the revocation and the rotation of a key beside them. A request is cut wherever it waits
for its store. What a transaction has written is seen when it commits; until then the rows it
has changed are locked, and a statement that would change one of them waits. Every statement
may fail, and a commit whose answer is lost may have taken effect. Keys, random values and
times are drawn outside. Who may revoke or rotate a key is decided before.
-/

namespace WslVault.IdentityService.Login

open Core Base Storage

/-- The crypto service as it keeps the secrets of authenticators. -/
structure MfaCrypto where
  wrap : (tenantId secret : String) → (apiKeyId : Uuid) → Except String String
  unwrap : (tenantId : Uuid) → (wrapped : String) → (apiKeyId : Uuid) → Except String String

structure Service where
  hashKey : String → List UInt8
  state : ApiKeyState
  crypto : Option MfaCrypto
  hotp : Bytes → Int → String
  sha256 : String → String

/-- What is shared: the keys, the tables of the second factor if there is a database, the
challenges of the process, and its signing keys. -/
structure LoginSystem where
  backend : Backend
  mfa : MfaTables
  challenges : Mfa.Challenges
  signingKeys : Option SigningKeys

inductive Request where
  | exchange (rawKey : String)
  | verify (challenge code : String)
  | enroll (rawKey : String)
  | confirm (rawKey code : String)
  | recoveryCodes (rawKey code : String)
  | revoke (keyId : Uuid) (tenantId : String)
  | rotate (keyId : Uuid) (tenantId : String)
  deriving DecidableEq

inductive Factor where
  | totp (step : Int)
  | recovery (codeHashes : List String)
  deriving DecidableEq

inductive Phase where
  | start
  /-- The key is valid, and its use is to be noted. -/
  | touching (result : ApiKeyValidationResult)
  | validated (result : ApiKeyValidationResult)
  | challenging (pending : PendingChallenge)
  | granting (result : ApiKeyValidationResult)
  | taken (pending : PendingChallenge)
  | proving (pending : PendingChallenge) (secret : String)
  /-- No row matched. -/
  | missed (pending : PendingChallenge)
  /-- The factor is consumed, and not committed. -/
  | consumed (pending : PendingChallenge) (factor : Factor)
  | accepted (pending : PendingChallenge) (factor : Factor)
  | confirming (result : ApiKeyValidationResult) (secret : String)
  | confirmed (result : ApiKeyValidationResult) (step : Int)
  | reproving (result : ApiKeyValidationResult) (secret : String)
  | reproved (result : ApiKeyValidationResult) (factor : Factor)
  | replaced (result : ApiKeyValidationResult) (factor : Factor) (codes : List String)
  | upserted (result : ApiKeyValidationResult) (wrapped secret : String)
  | recoded (result : ApiKeyValidationResult) (wrapped secret : String) (codes : List String)
  | rotating (old : ApiKeyRecord)
  | replacing (old : ApiKeyRecord)
  deriving DecidableEq

inductive Response where
  | refused (e : ErrorResponse)
  | token (response : ApiKeyAuthResponse)
  | challenge (id : String)
  | enrolled (secret : String) (codes : List String)
  | confirmed
  | codes (codes : List String)
  | revoked
  | rotated (response : ApiKeyCreateResponse)
  deriving DecidableEq

inductive Failure where
  | scope (reason : String)
  | statement (reason : String)

/-- What a turn meets and draws: the time, a failure of the database and whether a commit
that failed took effect, the id of a challenge, the secret and the recovery codes that the
generator gives, and what a new key and a new signing key draw. -/
structure Moment where
  now : Timestamp
  failure : Option Failure
  took : Bool
  challengeId : Uuid
  secret : Option String
  codes : Option (List String)
  draw : Draw
  keyDraw : KeyDraw

abbrev LoginTurn := Turn LoginSystem Phase Response

abbrev LoginSessions := Sessions LoginSystem Request Phase

abbrev Event := SessionEvent Request Moment

/-- Rows that a transaction has changed and not committed. -/
inductive Lock where
  | totp (apiKeyId : Uuid)
  | codes (apiKeyId : Uuid) (codeHashes : List String)
  | allCodes (apiKeyId : Uuid)

def Lock.conflicts : Lock → Lock → Bool
  | totp k, totp k' => k == k'
  | codes k hashes, codes k' hashes' => k == k' && hashes.any hashes'.contains
  | codes k _, allCodes k' => k == k'
  | allCodes k, codes k' _ => k == k'
  | allCodes k, allCodes k' => k == k'
  | _, _ => false

def Factor.lock (apiKeyId : Uuid) : Factor → Lock
  | totp _ => .totp apiKeyId
  | recovery codeHashes => .codes apiKeyId codeHashes

def Phase.locks : Phase → List Lock
  | consumed pending factor => [factor.lock pending.apiKeyId]
  | confirmed result _ => [.totp result.keyId]
  | reproved result factor => [factor.lock result.keyId]
  | replaced result factor _ => [factor.lock result.keyId, .allCodes result.keyId]
  | upserted result _ _ => [.totp result.keyId]
  | recoded result _ _ _ => [.totp result.keyId, .allCodes result.keyId]
  | _ => []

def blocked (others : List (Request × Phase)) (lock : Lock) : Bool :=
  others.any fun x => x.2.locks.any lock.conflicts

namespace LoginSystem

section Turns

variable (svc : Service) (sys : LoginSystem) (others : List (Request × Phase)) (m : Moment)
  (mfa : MfaTables) (keyId : Uuid)

def refuse (sys : LoginSystem) (status : Nat) (message : String) : LoginTurn :=
  .finish sys (.refused ⟨status, "", message⟩)

/-- The answer after a failed commit, with what it left. -/
def uncommitted (committed : LoginSystem) (message : String) : LoginTurn :=
  refuse (if m.took then committed else sys) 503 message

def hasDatabase : Bool :=
  match sys.backend with
  | .database _ _ => true
  | .memory _ _ => false

/-- `validate_key`: a key in memory is read and stamped at once. -/
def validate (rawKey : String) : LoginTurn :=
  match ApiKeyManager.parseKeyRandomPortion rawKey, sys.hasDatabase, m.failure with
  | .error e, _, _ => .finish sys (.refused e.response)
  | .ok _, true, some (.scope reason) =>
    .finish sys (.refused (ApiKeyError.storage reason).response)
  | .ok _, true, some (.statement reason) =>
    .finish sys (.refused (ApiKeyError.storage reason).response)
  | .ok _, database, _ =>
    match ApiKeyManager.validateKey svc.hashKey m.now sys.backend rawKey with
    | .error e => .finish sys (.refused e.response)
    | .ok (backend, result) =>
      if database then .goOn sys (.touching result)
      else .goOn { sys with backend := backend } (.validated result)

def touch (result : ApiKeyValidationResult) : LoginTurn :=
  match m.failure, sys.backend, Uuid.parseStr result.tenantId with
  | none, .database tenants keys, some tenantId =>
    .goOn { sys with
      backend := .database tenants (ApiKeyStore.touchLastUsed keys m.now result.keyId tenantId) }
      (.validated result)
  | _, _, _ => .goOn sys (.validated result)

/-! ## `handle_auth_api_key` -/

/-- The login that waits for a code; its expiry is `challenge_expiry`. -/
def pendingOf (result : ApiKeyValidationResult) (now : Timestamp) : PendingChallenge where
  apiKeyId := result.keyId
  tenantId := result.tenantId
  policies := result.policies
  superuser := result.isSuperuser
  expiresAt := Jwt.unix now + challengeTtl

/-- `mfa_enrolment_active`. -/
def enrolmentActive (result : ApiKeyValidationResult) : Except Unit Bool :=
  if sys.hasDatabase then
    match Uuid.parseStr (Text.trim result.tenantId), m.failure with
    | some _, none => .ok ((MfaStore.find sys.mfa result.keyId).any TotpEnrolment.isActive)
    | _, _ => .error ()
  else .ok false

def exchangeValidated (result : ApiKeyValidationResult) : LoginTurn :=
  if result.mfaRequired then
    match sys.enrolmentActive m result with
    | .ok true => .goOn sys (.challenging (pendingOf result m.now))
    | .ok false =>
      refuse sys 403 ("this key requires an authenticator; " ++
        "enrol one via /v1/auth/mfa/totp/enroll")
    | .error _ => refuse sys 503 "could not verify the second factor"
  else .goOn sys (.granting result)

def exchangeChallenging (pending : PendingChallenge) : LoginTurn :=
  .finish { sys with challenges := Mfa.issue sys.challenges m.now m.challengeId.toString pending }
    (.challenge m.challengeId.toString)

def grant (tenantId : String) (policies : List String) (superuser : Bool) : LoginTurn :=
  let done := issueResponse svc.state m.now sys.signingKeys m.keyDraw keyId tenantId policies
    superuser
  match done.2 with
  | .error e => .finish { sys with signingKeys := done.1 } (.refused e)
  | .ok response => .finish { sys with signingKeys := done.1 } (.token response)

/-- How the handlers that read an enrolment differ: whether it has to be confirmed, and what
they answer. -/
structure EnrolmentUse where
  confirmed : Bool
  missingStatus : Nat
  (missing unread unwrapped : String)

def verifyUse : EnrolmentUse where
  confirmed := true
  missingStatus := 403
  missing := "no confirmed authenticator for this key"
  unread := "could not verify the second factor"
  unwrapped := "could not verify the second factor"

def confirmUse : EnrolmentUse where
  confirmed := false
  missingStatus := 404
  missing := "no enrolment in progress"
  unread := "could not read the enrolment"
  unwrapped := "could not read the enrolment secret"

def recoveryUse : EnrolmentUse where
  confirmed := true
  missingStatus := 404
  missing := "this key has no confirmed authenticator, so it has no recovery codes to replace"
  unread := "could not read the enrolment"
  unwrapped := "could not read the enrolment secret"

/-- The scope of a tenant, the enrolment, and its secret. -/
def enrolmentSecret (use : EnrolmentUse) (tenantId : String) (apiKeyId : Uuid) :
    Except ErrorResponse String :=
  match svc.crypto, sys.hasDatabase with
  | some crypto, true =>
    match Uuid.parseStr (Text.trim tenantId), m.failure with
    | none, _ => .error ⟨500, "", "MFA is temporarily unavailable"⟩
    | some _, some (.scope _) => .error ⟨500, "", "MFA is temporarily unavailable"⟩
    | some _, some (.statement _) => .error ⟨503, "", use.unread⟩
    | some _, none =>
      match (MfaStore.find sys.mfa apiKeyId).filter fun e => e.isActive || !use.confirmed with
      | none => .error ⟨use.missingStatus, "", use.missing⟩
      | some e =>
        (crypto.unwrap e.tenantId e.wrappedSecret apiKeyId).mapError fun _ =>
          ⟨503, "", use.unwrapped⟩
  | _, _ => .error ⟨503, "", "MFA is not configured"⟩

def withSecret (use : EnrolmentUse) (tenantId : String) (apiKeyId : Uuid)
    (next : String → Phase) : LoginTurn :=
  match sys.enrolmentSecret svc m use tenantId apiKeyId with
  | .error e => .finish sys (.refused e)
  | .ok secret => .goOn sys (next secret)

inductive Proof where
  | wait
  | missed
  | matched (factor : Factor)

/-- A code of the authenticator is tried first, then a recovery code. A row that no longer
matches is not waited for. -/
def prove (apiKeyId : Uuid) (secret code : String) : Proof :=
  match Mfa.verifyCode svc.hotp secret code (Jwt.unix m.now) with
  | some step =>
    if MfaStore.stepFresh sys.mfa apiKeyId step then
      if blocked others (.totp apiKeyId) then .wait else .matched (.totp step)
    else .missed
  | none =>
    let codeHashes := Mfa.recoveryCodeHashCandidates svc.sha256 code
    if MfaStore.codeUnused sys.mfa apiKeyId codeHashes then
      if blocked others (.codes apiKeyId codeHashes) then .wait
      else .matched (.recovery codeHashes)
    else .missed

def spend (now : Timestamp) (apiKeyId : Uuid) : Factor → MfaTables
  | .totp step => MfaStore.tryConsumeStep mfa apiKeyId step
  | .recovery codeHashes => MfaStore.consumeRecoveryCode mfa now apiKeyId codeHashes

/-! ## `handle_mfa_verify` -/

def verifyStart (challenge : String) : LoginTurn :=
  let taken := Mfa.take sys.challenges m.now challenge
  let sys' := { sys with challenges := taken.1 }
  match taken.2 with
  | none => refuse sys' 403 "challenge is unknown or expired"
  | some pending => .goOn sys' (.taken pending)

def verifyProving (code : String) (pending : PendingChallenge) (secret : String) : LoginTurn :=
  match Uuid.parseStr (Text.trim pending.tenantId), m.failure with
  | some _, none =>
    match sys.prove svc others m pending.apiKeyId secret code with
    | .wait => .wait
    | .missed => .goOn sys (.missed pending)
    | .matched factor => .goOn sys (.consumed pending factor)
  | _, _ => refuse sys 503 "could not verify the second factor"

def verifyMissed : LoginTurn :=
  match m.failure with
  | some _ => refuse sys 503 "could not verify the second factor"
  | none => refuse sys 403 "invalid or already-used code"

def verifyConsumed (pending : PendingChallenge) (factor : Factor) : LoginTurn :=
  let committed := { sys with mfa := spend sys.mfa m.now pending.apiKeyId factor }
  match m.failure with
  | some _ => sys.uncommitted m committed "could not verify the second factor"
  | none => .goOn committed (.accepted pending factor)

/-! ## `handle_mfa_confirm` -/

def requireMfa (backend : Backend) (keyId : Uuid) : Backend :=
  match backend with
  | .database tenants keys =>
    .database tenants (keys.update (fun k => k.id == keyId)
      (fun k => { k with mfaRequired := true }) fun _ => rfl)
  | .memory byHash idToHash => .memory byHash idToHash

def confirmConfirming (code : String) (result : ApiKeyValidationResult) (secret : String) :
    LoginTurn :=
  match Mfa.verifyCode svc.hotp secret code (Jwt.unix m.now) with
  | none => refuse sys 403 "that code does not match the enrolment"
  | some step =>
    match m.failure, MfaStore.find sys.mfa result.keyId with
    | none, some _ =>
      if blocked others (.totp result.keyId) then .wait else .goOn sys (.confirmed result step)
    | _, _ => refuse sys 503 "could not confirm the enrolment"

def confirmConfirmed (result : ApiKeyValidationResult) (step : Int) : LoginTurn :=
  let committed := { sys with
    mfa := MfaStore.confirm sys.mfa m.now result.keyId step
    backend := requireMfa sys.backend result.keyId }
  match m.failure with
  | some _ => sys.uncommitted m committed "could not confirm the enrolment"
  | none => .finish committed .confirmed

/-! ## `handle_mfa_recovery_codes` -/

def recoveryValidated (result : ApiKeyValidationResult) : LoginTurn :=
  match svc.crypto, sys.hasDatabase, Uuid.parseStr result.tenantId with
  | some _, true, none => refuse sys 500 "malformed tenant on this key"
  | _, _, _ => sys.withSecret svc m recoveryUse result.tenantId result.keyId (.reproving result)

def recoveryReproving (code : String) (result : ApiKeyValidationResult) (secret : String) :
    LoginTurn :=
  match m.failure with
  | some _ => refuse sys 503 "could not verify the code"
  | none =>
    match sys.prove svc others m result.keyId secret code with
    | .wait => .wait
    | .missed =>
      refuse sys 403 ("that code was not accepted — supply a current code from your " ++
        "authenticator app, or one of your remaining recovery codes")
    | .matched factor => .goOn sys (.reproved result factor)

/-- The new codes of a key, after what its transaction has changed already. -/
def recode (result : ApiKeyValidationResult) (codes : List String) : Option MfaTables :=
  (Uuid.parseStr result.tenantId).bind fun tenantId =>
    MfaStore.replaceRecoveryCodes mfa result.keyId tenantId
      (codes.map (Mfa.hashRecoveryCode svc.sha256))

/-- The statements that replace the codes; `next` is where the transaction then stands. -/
def replaceCodes (result : ApiKeyValidationResult) (failed : String)
    (next : List String → Phase) : LoginTurn :=
  match m.codes with
  | none => refuse sys 500 "could not generate recovery codes"
  | some codes =>
    match m.failure, recode svc mfa result codes with
    | none, some _ =>
      if blocked others (.allCodes result.keyId) then .wait else .goOn sys (next codes)
    | _, _ => refuse sys 503 failed

def recoveryReproved (result : ApiKeyValidationResult) (factor : Factor) : LoginTurn :=
  sys.replaceCodes svc others m (spend sys.mfa m.now result.keyId factor) result
    "could not store the new recovery codes" (.replaced result factor)

def recoveryReplaced (result : ApiKeyValidationResult) (factor : Factor) (codes : List String) :
    LoginTurn :=
  match recode svc (spend sys.mfa m.now result.keyId factor) result codes with
  | none => refuse sys 503 "could not store the new recovery codes"
  | some mfa =>
    match m.failure with
    | some _ => sys.uncommitted m { sys with mfa := mfa } "could not store the new recovery codes"
    | none => .finish { sys with mfa := mfa } (.codes codes)

/-! ## `handle_mfa_enroll` -/

def alreadyConfirmed : VaultError :=
  .validationError "mfa"
    "this key already has a confirmed authenticator; remove it before re-enrolling"

def enrollValidated (result : ApiKeyValidationResult) : LoginTurn :=
  match svc.crypto, sys.hasDatabase, Uuid.parseStr result.tenantId, m.secret with
  | some _, true, none, _ => refuse sys 400 "tenant is not a UUID"
  | some _, true, some _, none => refuse sys 500 "could not generate a secret"
  | some crypto, true, some tenantId, some secret =>
    match crypto.wrap result.tenantId secret result.keyId, m.failure with
    | .error e, _ => refuse sys 503 ("could not store the secret: " ++ e)
    | .ok _, some (.scope _) => refuse sys 500 "MFA is temporarily unavailable"
    | .ok _, some (.statement reason) =>
      refuse sys 409 (VaultError.database ("could not start MFA enrolment: " ++ reason)).display
    | .ok wrapped, none =>
      if blocked others (.totp result.keyId) then .wait
      else
        match MfaStore.upsertPending sys.mfa result.keyId tenantId wrapped with
        | none => refuse sys 409 alreadyConfirmed.display
        | some _ => .goOn sys (.upserted result wrapped secret)
  | _, _, _, _ => refuse sys 503 "MFA is not configured"

def pendingTables (result : ApiKeyValidationResult) (wrapped : String) : Option MfaTables :=
  (Uuid.parseStr result.tenantId).bind fun tenantId =>
    MfaStore.upsertPending mfa result.keyId tenantId wrapped

def enrollUpserted (result : ApiKeyValidationResult) (wrapped secret : String) : LoginTurn :=
  match pendingTables sys.mfa result wrapped with
  | none => refuse sys 503 "could not store recovery codes"
  | some mfa =>
    sys.replaceCodes svc others m mfa result "could not store recovery codes"
      (.recoded result wrapped secret)

def enrollRecoded (result : ApiKeyValidationResult) (wrapped secret : String)
    (codes : List String) : LoginTurn :=
  match (pendingTables sys.mfa result wrapped).bind fun mfa => recode svc mfa result codes with
  | none => refuse sys 503 "could not store the enrolment"
  | some mfa =>
    match m.failure with
    | some _ => sys.uncommitted m { sys with mfa := mfa } "could not store the enrolment"
    | none => .finish { sys with mfa := mfa } (.enrolled secret codes)

def storageFailure : Option String :=
  match sys.hasDatabase, m.failure with
  | true, some (.scope reason) => some reason
  | true, some (.statement reason) => some reason
  | _, _ => none

def revokeThen (tenantId : String) (next : LoginSystem → LoginTurn) : LoginTurn :=
  match ApiKeyManager.revokeKey m.now sys.backend keyId tenantId, sys.storageFailure m with
  | .error e, none => .finish sys (.refused e.response)
  | .ok backend, none => next { sys with backend := backend }
  | .error _, some reason => .finish sys (.refused (ApiKeyError.storage reason).response)
  | .ok backend, some reason =>
    .finish (if m.took then { sys with backend := backend } else sys)
      (.refused (ApiKeyError.storage reason).response)

def rotateStart (tenantId : String) : LoginTurn :=
  match ApiKeyManager.findById sys.backend keyId tenantId, sys.storageFailure m with
  | .ok old, none => .goOn sys (.rotating old)
  | .error e, none => .finish sys (.refused e.response)
  | _, some reason => .finish sys (.refused (ApiKeyError.storage reason).response)

def rotateReplacing (tenantId : String) (old : ApiKeyRecord) : LoginTurn :=
  match ApiKeyManager.createKey svc.hashKey m.draw sys.backend
      (ApiKeyManager.rotationRequest old tenantId) old.createdBy, sys.storageFailure m with
  | .ok (backend, response), none => .finish { sys with backend := backend } (.rotated response)
  | .error e, none => .finish sys (.refused e.response)
  | .ok (backend, _), some reason =>
    .finish (if m.took then { sys with backend := backend } else sys)
      (.refused (ApiKeyError.storage reason).response)
  | .error _, some reason => .finish sys (.refused (ApiKeyError.storage reason).response)

def advance : Request → Phase → LoginTurn
  | .exchange rawKey, .start => sys.validate svc m rawKey
  | .exchange _, .touching result => sys.touch m result
  | .exchange _, .validated result => sys.exchangeValidated m result
  | .exchange _, .challenging pending => sys.exchangeChallenging m pending
  | .exchange _, .granting result =>
    sys.grant svc m result.keyId result.tenantId result.policies result.isSuperuser
  | .verify challenge _, .start => sys.verifyStart m challenge
  | .verify _ _, .taken pending =>
    sys.withSecret svc m verifyUse pending.tenantId pending.apiKeyId (.proving pending)
  | .verify _ code, .proving pending secret => sys.verifyProving svc others m code pending secret
  | .verify _ _, .missed _ => sys.verifyMissed m
  | .verify _ _, .consumed pending factor => sys.verifyConsumed m pending factor
  | .verify _ _, .accepted pending _ =>
    sys.grant svc m pending.apiKeyId pending.tenantId pending.policies pending.superuser
  | .enroll rawKey, .start => sys.validate svc m rawKey
  | .enroll _, .touching result => sys.touch m result
  | .enroll _, .validated result => sys.enrollValidated svc others m result
  | .enroll _, .upserted result wrapped secret =>
    sys.enrollUpserted svc others m result wrapped secret
  | .enroll _, .recoded result wrapped secret codes =>
    sys.enrollRecoded svc m result wrapped secret codes
  | .confirm rawKey _, .start => sys.validate svc m rawKey
  | .confirm _ _, .touching result => sys.touch m result
  | .confirm _ _, .validated result =>
    sys.withSecret svc m confirmUse result.tenantId result.keyId (.confirming result)
  | .confirm _ code, .confirming result secret =>
    sys.confirmConfirming svc others m code result secret
  | .confirm _ _, .confirmed result step => sys.confirmConfirmed m result step
  | .recoveryCodes rawKey _, .start => sys.validate svc m rawKey
  | .recoveryCodes _ _, .touching result => sys.touch m result
  | .recoveryCodes _ _, .validated result => sys.recoveryValidated svc m result
  | .recoveryCodes _ code, .reproving result secret =>
    sys.recoveryReproving svc others m code result secret
  | .recoveryCodes _ _, .reproved result factor =>
    sys.recoveryReproved svc others m result factor
  | .recoveryCodes _ _, .replaced result factor codes =>
    sys.recoveryReplaced svc m result factor codes
  | .revoke keyId tenantId, .start =>
    sys.revokeThen m keyId tenantId fun sys' => .finish sys' .revoked
  | .rotate keyId tenantId, .start => sys.rotateStart m keyId tenantId
  | .rotate keyId tenantId, .rotating old =>
    sys.revokeThen m keyId tenantId fun sys' => .goOn sys' (.replacing old)
  | .rotate _ tenantId, .replacing old => sys.rotateReplacing svc m tenantId old
  | _, _ => .wait

end Turns

def step (svc : Service) : LoginSessions → Event → LoginSessions × Option (Request × Response) :=
  Tasks.step .start fun sys others m request phase => sys.advance svc others m request phase

end LoginSystem

end WslVault.IdentityService.Login
