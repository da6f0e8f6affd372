import WslVault.IdentityService.ApiKeys
import WslVault.IdentityService.Verify.Revocation
import WslVault.PolicyEngine.Verify.Evaluator
import WslVault.SecretEngine.Grpc
import WslVault.SecretEngine.Http
import WslVault.SecretEngine.Kv2

/-!
# Path prefixes of a key

The exchange of a key for a token stamps the tenant, the policies and the superuser flag of
the key into the claims, and nothing else (`Obtained.issued`), so the policy check of the
secret engine cannot know the prefixes. The gRPC mount takes the policies from the caller.
-/

namespace WslVault.IdentityService

open Base Core Core.Auth Storage SecretEngine
open PolicyEngine (CompiledPolicies Grants evaluate)

variable {hashKey : String → List UInt8} {state : ApiKeyState} {record : ApiKeyRecord}
  {token : Jwt.Token} {texts : Jwt.Texts} {text : String} {policy : PolicyEngine.Service}

/-! ## The exchange -/

/-- A token got for a key: at once, or after the code of a challenge was accepted. -/
inductive Obtained (hashKey : String → List UInt8) (state : ApiKeyState) (record : ApiKeyRecord) :
    Jwt.Token → Prop where
  | direct {backend rawKey now keys keys' draw enrolled response}
      (hfound : ApiKeyManager.findByHash backend (hashKey rawKey) = some record)
      (h : handleAuthApiKey hashKey state now backend keys draw enrolled rawKey =
        (keys', .ok (.token response))) :
      Obtained hashKey state record response.token
  | secondFactor {backend rawKey now keys keys' draw enrolled pending}
      (hfound : ApiKeyManager.findByHash backend (hashKey rawKey) = some record)
      (h : handleAuthApiKey hashKey state now backend keys draw enrolled rawKey =
        (keys', .ok (.challenge pending)))
      {now' held held' draw' response}
      (hcode : handleMfaVerify state now' held draw' pending = (held', .ok response)) :
      Obtained hashKey state record response.token

theorem SigningKeys.outcome_signerFor_ed25519 (custody : KeyCustody) (draw : KeyDraw)
    (owner : Option Uuid) (keys : SigningKeys) : Outcome (signerFor custody draw owner) keys
      (fun signer _ => ∃ publicKey, signer.encoding = .ed25519 publicKey) fun _ _ => True := by
  unfold signerFor
  simp only [outcome_bind, outcome_get]
  split
  · simp only [outcome_bind, outcome_pure]
    exact outcome_of_forall (fun pkcs8 _ => ⟨_, rfl⟩) fun _ _ => trivial
  · simp only [outcome_bind, outcome_pure]
    refine outcome_of_forall (fun record _ => ?_) fun _ _ => trivial
    exact outcome_of_forall (fun pkcs8 _ => ⟨_, rfl⟩) fun _ _ => trivial

structure Stamped (m : TokenManager) (token : Jwt.Token) (subject tenantId : String)
    (policies : List String) (superuser : Bool) (claims : TokenClaims) : Prop where
  issued : Issued m token claims
  sub : claims.sub = subject
  tenantId : claims.tenantId = tenantId
  policies : claims.policies = policies
  superuser : claims.superuser = superuser

variable {now : Timestamp} {keys keys' : Option SigningKeys} {draw : KeyDraw} {tenantId : String}
  {policies : List String} {superuser : Bool} {m : TokenManager}

theorem stamped_of_issueForTenant {subject : String} {expiresAt : Timestamp}
    (h : (issueForTenant state now keys draw subject tenantId policies superuser).2 =
      .ok (token, expiresAt)) :
    ∃ claims, Stamped state.tokenManager token subject tenantId policies superuser claims := by
  unfold issueForTenant at h
  split at h
  · split at h
    · cases h
    · next hsuper =>
      have hissue := mapError_eq_ok h
      have hfalse : superuser = false := by simpa using hsuper
      exact ⟨_, .shared hissue, rfl, rfl, rfl, hfalse.symm⟩
  · next keys =>
    split at h
    · cases h
    · next owner _ =>
      obtain ⟨signer, hsigner, h⟩ := bind_eq_ok.mp h
      obtain ⟨publicKey, hencoding⟩ := (outcome_iff_perform.mp
        (SigningKeys.outcome_signerFor_ed25519 state.custody draw owner keys)).1 signer hsigner
      have hissue := mapError_eq_ok h
      rw [hencoding] at hissue
      exact ⟨_, .signed hissue, rfl, rfl, rfl, rfl⟩

theorem stamped_of_issueResponse {keyId : Uuid} {response : ApiKeyAuthResponse}
    (h : issueResponse state now keys draw keyId tenantId policies superuser =
      (keys', .ok response)) :
    ∃ claims, Stamped state.tokenManager response.token keyId.toString tenantId policies
      superuser claims := by
  have hsnd := mapError_eq_ok (congrArg Prod.snd h)
  cases hissue : (issueForTenant state now keys draw keyId.toString tenantId policies
      superuser).2 with
  | error e =>
    rw [hissue] at hsnd
    cases hsnd
  | ok issued =>
    rw [hissue] at hsnd
    cases hsnd
    exact stamped_of_issueForTenant hissue

theorem validationResult_of_validateKey {backend touched : Backend}
    {rawKey : String} {result : ApiKeyValidationResult}
    (h : ApiKeyManager.validateKey hashKey now backend rawKey = .ok (touched, result))
    (hfound : ApiKeyManager.findByHash backend (hashKey rawKey) = some record) :
    result = ApiKeyManager.validationResult record := by
  simp only [ApiKeyManager.validateKey, bind_eq_ok, okOr_eq_ok, pure_eq_ok, hfound] at h
  obtain ⟨-, -, record', hrecord, -, -, -, -, heq⟩ := h
  cases hrecord
  cases heq
  rfl

theorem handleAuthApiKey_eq_ok {backend : Backend} {rawKey : String} {enrolled : Except String Bool}
    {outcome : AuthOutcome}
    (hfound : ApiKeyManager.findByHash backend (hashKey rawKey) = some record)
    (h : handleAuthApiKey hashKey state now backend keys draw enrolled rawKey =
      (keys', .ok outcome)) : (∃ response, outcome = .token response ∧
      issueResponse state now keys draw record.id record.tenantId record.policies
        record.isSuperuser = (keys', .ok response)) ∨
      outcome = .challenge ⟨record.id, record.tenantId, record.policies, record.isSuperuser,
        Jwt.unix now + challengeTtl⟩ := by
  unfold handleAuthApiKey at h
  split at h
  · cases h
  · next touched result hvalid =>
    obtain rfl := validationResult_of_validateKey hvalid hfound
    split at h
    · split at h
      · cases h
        exact .inr rfl
      · cases h
      · cases h
    · left
      cases hissue : issueResponse state now keys draw record.id record.tenantId record.policies
          record.isSuperuser with
      | mk held result =>
        simp only [ApiKeyManager.validationResult, hissue] at h
        cases result with
        | error e => cases h
        | ok response =>
          cases h
          exact ⟨response, rfl, rfl⟩

theorem Obtained.issued (h : Obtained hashKey state record token) :
    ∃ claims, Stamped state.tokenManager token record.id.toString record.tenantId
      record.policies record.isSuperuser claims := by
  cases h with
  | direct hfound h =>
    obtain ⟨response, heq, hissue⟩ | heq := handleAuthApiKey_eq_ok hfound h
    · cases heq
      exact stamped_of_issueResponse hissue
    · cases heq
  | secondFactor hfound h hcode =>
    obtain ⟨response, heq, -⟩ | heq := handleAuthApiKey_eq_ok hfound h
    · cases heq
    · cases heq
      unfold handleMfaVerify at hcode
      split at hcode
      · cases hcode
      · exact stamped_of_issueResponse hcode

/-! ## The policy check -/

def ciTenant : Uuid := Uuid.repeated 'c' (.refl true)

def teamKey : ApiKeyRow where
  id := Uuid.repeated '1' (.refl true)
  tenantId := ciTenant
  name := "ci"
  keyHash := [1]
  keyPrefix := "AAAAAAAA"
  pathPrefixes := ["team/"]
  policies := ["reader"]
  createdBy := "admin"
  createdAt := 0
  expiresAt := none
  revokedAt := none
  rateLimitPerMinute := 60

def ciRow : TenantRow := .live ciTenant "ci" "CI" .project .int

def teamKeys : Backend := .database (.singleton ciRow) (.singleton teamKey)

def teamState : ApiKeyState where
  tokenManager := sharedManager
  custody := ⟨fun _ _ _ => .error "", fun _ _ _ => .error "", id⟩

def readerPolicy : PolicyEngine.Service where
  store := .memory ∅
  compiled := PolicyEngine.CompiledPolicies.upsert ∅ ciTenant.toString "reader"
    [⟨["**"], {.read}⟩]
  building := none
  inFlight := ∅

end WslVault.IdentityService
