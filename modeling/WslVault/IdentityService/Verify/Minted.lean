import WslVault.IdentityService.Verify.PathPrefixes

/-!
# Tokens that the service does not know

`ValidateToken` reads tokens under the shared secret only. The exchange of an API key signs
with the key of the tenant as soon as the service has signing keys.
-/

namespace WslVault.IdentityService

open Base Core Storage

variable {state : ApiKeyState} {keyed : Bool} {token : Jwt.Token} {principalId tenantId : String}
  {policies : List String}

/-- A token handed out by `authenticate`, whatever the method, or for an API key.
The flag says that a signing key was used. -/
inductive Minted (state : ApiKeyState) :
    Bool → Jwt.Token → String → String → List String → Prop where
  | authenticate {now expiresAt token principalId tenantId policies}
      (h : state.tokenManager.issueToken now principalId tenantId policies
        tokenReissueTtlSeconds = .ok (token, expiresAt)) :
      Minted state false token principalId tenantId policies
  | exchange {now expiresAt keys draw token principalId tenantId policies superuser}
      (h : (issueForTenant state now keys draw principalId tenantId policies superuser).2 =
        .ok (token, expiresAt)) : Minted state keys.isSome token principalId tenantId policies

theorem alg_of_issueForTenant {now expiresAt : Timestamp} {keys : Option SigningKeys}
    {draw : KeyDraw} {superuser : Bool}
    (h : (issueForTenant state now keys draw principalId tenantId policies superuser).2 =
      .ok (token, expiresAt)) : token.header.alg = if keys.isSome then .edDSA else .hs256 := by
  unfold issueForTenant at h
  split at h
  · split at h
    · cases h
    · rw [TokenManager.token_of_issueTokenWithKey (mapError_eq_ok h)]
      rfl
  · split at h
    · cases h
    · obtain ⟨signer, -, h⟩ := bind_eq_ok.mp h
      rw [TokenManager.token_of_issueTokenWithKey (mapError_eq_ok h)]
      rfl

theorem Minted.stamped (h : Minted state keyed token principalId tenantId policies) :
    token.header.alg = (if keyed then .edDSA else .hs256) ∧
      ∃ superuser claims, Stamped state.tokenManager token principalId tenantId policies superuser
        claims := by
  cases h with
  | authenticate h =>
    refine ⟨?_, false, _, .shared h, rfl, rfl, rfl, rfl⟩
    rw [TokenManager.token_of_issueTokenWithKey h]
    rfl
  | exchange h => exact ⟨alg_of_issueForTenant h, _, stamped_of_issueForTenant h⟩

theorem validateToken_eq_valid {tokens : Tokens} {m : TokenManager} {list : RevocationList}
    {moment : Moment} {text : String} {response : ValidateTokenResponse} (htext : text ≠ "")
    (hlist : isRevoked tokens list moment text = false) (hvalid : response.valid = true) :
    validateToken tokens m list moment text = .ok response ↔
      ∃ c, m.validateToken tokens.texts moment.now text = .ok c ∧
        response = ⟨true, c.sub, c.tenantId, c.policies⟩ := by
  rw [validateToken, if_neg htext, hlist]
  cases hc : m.validateToken tokens.texts moment.now text with
  | ok c => simp [eq_comm]
  | error e => cases e <;> simp [← hvalid, ValidateTokenResponse.invalid] <;> grind

/-- A token that is not on the list and has not expired is reported valid, for its
principal and tenant and with its policies, exactly if no signing key was used. -/
theorem minted_token_accepted_iff {tokens : Tokens} {list : RevocationList} {moment : Moment}
    {text : String} {exp : Int} (h : Minted state keyed token principalId tenantId policies)
    (htoken : tokens.texts text = some token) (htext : text ≠ "")
    (hlist : isRevoked tokens list moment text = false) (hexp : token.payload.exp = some exp)
    (htime : Jwt.unix moment.now < exp) : validateToken tokens state.tokenManager list moment text =
      .ok ⟨true, principalId, tenantId, policies⟩ ↔ keyed = false := by
  obtain ⟨halg, superuser, claims, hstamp⟩ := h.stamped
  have hgenuine := hstamp.issued.genuine
  have hends : claims.exp = exp := by
    rw [hgenuine.payload] at hexp
    exact Option.some.inj hexp
  rw [validateToken_eq_valid htext hlist rfl]
  simp only [hgenuine.validateToken_eq_ok htoken, halg]
  constructor
  · rintro ⟨c, ⟨hshared, -⟩, -⟩
    cases keyed with
    | false => rfl
    | true => cases hshared
  · rintro rfl
    refine ⟨claims, ⟨rfl, by omega, rfl⟩, ?_⟩
    rw [hstamp.sub, hstamp.tenantId, hstamp.policies]

theorem minted_hour_token_accepted :
    validateToken hourTokens sharedManager (.memory []) ⟨0, none⟩ "token" =
      .ok ⟨true, "principal", "tenant", []⟩ := by
  have hissue : sharedManager.issueToken 0 "principal" "tenant" [] 3600 =
      .ok (hourToken, seconds 3600) := rfl
  have hminted : Minted teamState false hourToken "principal" "tenant" [] := .authenticate hissue
  have hexp : hourToken.payload.exp = some 3600 := rfl
  exact (minted_token_accepted_iff hminted rfl (by decide) rfl hexp (by decide)).mpr rfl

def signingState : ApiKeyState :=
  { teamState with custody := ⟨fun _ _ _ => .ok "", fun _ _ _ => .ok [], id⟩ }

def signedToken : Jwt.Token where
  header := ⟨.edDSA, some ("wslv-" ++ ciTenant.toString)⟩
  payload := (sharedManager.claims 0 teamKey.id.toString ciTenant.toString ["reader"] 3600
    false).payload
  signature := some (.ed25519 [])

theorem signed_token_not_accepted :
    (issueForTenant signingState 0 (some ⟨.empty, ∅, ∅⟩) ⟨[], ciTenant, 0⟩ teamKey.id.toString
        ciTenant.toString ["reader"] false).2 = .ok (signedToken, seconds 3600) ∧
      validateToken ⟨id, fun _ => some signedToken⟩ signingState.tokenManager (.memory [])
        ⟨0, none⟩ "token" = .ok .invalid :=
  ⟨by decide +kernel, rfl⟩

end WslVault.IdentityService
