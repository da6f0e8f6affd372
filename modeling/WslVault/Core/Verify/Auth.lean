import WslVault.Base.Stateful
import WslVault.Core.Auth

/-!
# What an accepted token tells

`Accepted` says of a text, without the steps of the verifier, that it is a token with these
claims that the process accepts. The verifier returns claims only of an accepted token, and
returns them if the keys are there.
-/

namespace WslVault.Core.Auth

open Base

variable {w : World} {headers headers' : Headers} {text : String}
  {claims : TokenClaims} {cache : JwksCache} {keys : AList (fun _ : String => Bytes)}

/-- A signature the process accepts, with the public keys it has. -/
def Signed (w : World) (keys : AList (fun _ : String => Bytes)) (token : Jwt.Token) : Prop :=
  (token.header.alg = .hs256 ∧ ∃ secret, w.env.jwtSecret = some secret ∧ secret ≠ "" ∧
    token.signature = some (.hmac (asBytes secret))) ∨
  (token.header.alg = .edDSA ∧ ∃ kid publicKey, token.header.kid = some kid ∧
    keys.lookup kid = some publicKey ∧ token.signature = some (.ed25519 publicKey))

structure Accepted (w : World) (keys : AList (fun _ : String => Bytes)) (text : String)
    (token : Jwt.Token) (claims : TokenClaims) : Prop where
  decoded : w.texts text = some token
  signed : Signed w keys token
  carried : TokenClaims.ofPayload token.payload = .ok claims
  unexpired : Jwt.unix w.now ≤ claims.exp + 60

theorem TokenClaims.ofPayload_eq_ok {p : Jwt.Payload} (h : TokenClaims.ofPayload p = .ok claims) :
    p.sub = some claims.sub ∧ p.tenantId = some claims.tenantId ∧ p.exp = some claims.exp ∧
      p.policies.getD [] = claims.policies ∧ p.superuser.getD false = claims.superuser := by
  simp only [TokenClaims.ofPayload, Jwt.required, bind_eq_ok, okOr_eq_ok, pure_eq_ok] at h
  obtain ⟨sub, hsub, tenantId, htenant, exp, hexp, rfl⟩ := h
  exact ⟨hsub, htenant, hexp, rfl, rfl⟩

theorem decode_eq_ok_iff {alg : Jwt.Algorithm} {key : Jwt.Signer} :
    Jwt.decode w.texts TokenClaims.ofPayload key
        { Jwt.Validation.new alg with validateAud := false } w.now text = .ok claims ↔
      ∃ token, w.texts text = some token ∧ token.header.alg = alg ∧ token.signature = some key ∧
        TokenClaims.ofPayload token.payload = .ok claims ∧ Jwt.unix w.now ≤ claims.exp + 60 := by
  rw [Jwt.decode_eq_ok]
  refine exists_congr fun token => and_congr_right fun _ => and_congr_right fun _ =>
    and_congr_right fun _ => and_congr_right fun hclaims => ?_
  have hexp := (TokenClaims.ofPayload_eq_ok hclaims).2.2.1
  simp [Jwt.validate_eq_ok, Jwt.Validation.new, hexp]

theorem accepted_of_verifyToken (h : verifyToken w text = .ok claims) :
    ∃ token, Accepted w keys text token claims := by
  unfold verifyToken at h
  split at h
  · cases h
  · cases h
  · next secret hempty hsecret =>
    obtain ⟨token, hdecoded, halg, hsigned, hclaims, hexp⟩ :=
      decode_eq_ok_iff.mp (mapError_eq_ok h)
    exact ⟨token, hdecoded, .inl ⟨halg, secret, hsecret, hempty, hsigned⟩, hclaims, hexp⟩

variable {token : Jwt.Token}

theorem verifyToken_of_accepted (h : Accepted w keys text token claims)
    (halg : token.header.alg = .hs256) : verifyToken w text = .ok claims := by
  obtain ⟨-, secret, hsecret, hempty, hsigned⟩ | ⟨halg', -⟩ := h.signed
  · have hdecode := decode_eq_ok_iff.mpr
      ⟨token, h.decoded, halg, hsigned, h.carried, h.unexpired⟩
    unfold verifyToken
    split
    · next hnone => simp [hsecret] at hnone
    · next hsome => exact absurd (by simpa [hsecret] using hsome) hempty
    · next secret' _ hsome =>
      cases hsecret.symm.trans hsome
      rw [hdecode]
      rfl
  · cases halg.symm.trans halg'

theorem outcome_publicKeyFor (w : World) (kid : String) (cache : JwksCache) :
    Outcome (JwksCache.publicKeyFor w kid) cache
      (fun publicKey cache' => cache'.keys.lookup kid = some publicKey) fun _ _ => True := by
  unfold JwksCache.publicKeyFor
  simp only [outcome_bind, outcome_get]
  split
  · next key hkey => simpa using hkey
  · simp only [outcome_bind, outcome_get]
    refine outcome_of_forall (fun _ cache' => ?_) fun _ _ => trivial
    split
    · next key hkey => simpa using hkey
    · simp

theorem perform_publicKeyFor {kid : String} {publicKey : Bytes}
    (h : cache.keys.lookup kid = some publicKey) :
    perform (JwksCache.publicKeyFor w kid) cache = (cache, .ok publicKey) := by
  rw [perform_eq_ok]
  unfold JwksCache.publicKeyFor
  simp [h]

theorem outcome_verifyTokenAsync (w : World) (text : String) (cache : JwksCache) :
    Outcome (verifyTokenAsync w text) cache
      (fun claims cache' => ∃ token, Accepted w cache'.keys text token claims) fun _ _ => True := by
  unfold verifyTokenAsync
  cases htoken : w.texts text with
  | none => simp [Jwt.decodeHeader, htoken, okOr, Except.map]
  | some token =>
    simp only [Jwt.decodeHeader, htoken, okOr, Except.map]
    cases halg : token.header.alg with
    | edDSA =>
      cases hkid : token.header.kid with
      | none => simp
      | some kid =>
        simp only [outcome_bind, outcome_ofExcept]
        refine (outcome_publicKeyFor w kid cache).mono (fun publicKey cache' hkey => ?_)
          fun _ _ _ => trivial
        refine ⟨fun claims hclaims => ?_, fun _ _ => trivial⟩
        obtain ⟨token', hdecoded, halg', hsigned, hcarried, hexp⟩ :=
          decode_eq_ok_iff.mp (mapError_eq_ok hclaims)
        cases htoken.symm.trans hdecoded
        exact ⟨token, htoken, .inr ⟨halg, kid, publicKey, hkid, hkey, hsigned⟩, hcarried, hexp⟩
    | hs256 =>
      simp only [outcome_ofExcept]
      exact ⟨fun claims hclaims => accepted_of_verifyToken hclaims, fun _ _ => trivial⟩
    | other name => simp

theorem perform_verifyTokenAsync (h : Accepted w cache.keys text token claims) :
    perform (verifyTokenAsync w text) cache = (cache, .ok claims) := by
  rw [perform_eq_ok]
  unfold verifyTokenAsync
  simp only [Jwt.decodeHeader, h.decoded, okOr, Except.map]
  obtain ⟨halg, -⟩ | ⟨halg, kid, publicKey, hkid, hkey, hsigned⟩ := h.signed
  · simp only [halg]
    simp [verifyToken_of_accepted h halg]
  · have hdecode : verifyWithKey w text publicKey = .ok claims := by
      unfold verifyWithKey
      rw [decode_eq_ok_iff.mpr ⟨token, h.decoded, halg, hsigned, h.carried, h.unexpired⟩]
      rfl
    simp only [halg, hkid]
    rw [outcome_bind_of_ok (perform_publicKeyFor hkey), hdecode]
    simp

theorem outcome_tokenIdentity (w : World) (text : String) (cache : JwksCache) :
    Outcome (tokenIdentity w text) cache
      (fun identity cache' => isTokenRevoked w text = .ok false ∧ ∃ token claims,
        Accepted w cache'.keys text token claims ∧ identity = claims.identity)
      fun _ _ => True := by
  unfold tokenIdentity
  rw [outcome_bind]
  refine (outcome_verifyTokenAsync w text cache).mono (fun claims cache' haccepted => ?_)
    fun _ _ _ => trivial
  obtain ⟨token, haccepted⟩ := haccepted
  split
  · simp
  · simp
  · next hlive => exact .pure ⟨hlive, token, claims, haccepted, rfl⟩

theorem perform_tokenIdentity
    (h : Accepted w cache.keys text token claims) (hlive : isTokenRevoked w text = .ok false) :
    perform (tokenIdentity w text) cache = (cache, .ok claims.identity) := by
  rw [perform_eq_ok]
  unfold tokenIdentity
  rw [outcome_bind_of_ok (perform_verifyTokenAsync h), hlive]
  simp

theorem gatewayHeadersTrusted_of_none {env : Env} (h : env.trustGatewayHeaders = none) :
    gatewayHeadersTrusted env = false := by
  simp only [gatewayHeadersTrusted, h]
  decide

def SameTokenHeaders (headers headers' : Headers) : Prop :=
  headers.lookup "x-vault-token" = headers'.lookup "x-vault-token" ∧
    headers.lookup "authorization" = headers'.lookup "authorization"

theorem extractToken_congr (h : SameTokenHeaders headers headers') :
    extractToken headers = extractToken headers' := by
  simp only [extractToken, headerValue, h.1, h.2]

theorem extractToken_ne_empty (h : extractToken headers = some text) : text ≠ "" := by
  simp only [extractToken, headerValue] at h
  split at h
  · next t ht =>
    cases h
    exact of_decide_eq_true (Option.filter_eq_some_iff.mp ht).2
  · exact of_decide_eq_true (Option.filter_eq_some_iff.mp h).2

theorem extractToken_header (h : text ≠ "") :
    extractToken [("x-vault-token", text)] = some text := by
  have hvalue : headerValue [("x-vault-token", text)] "x-vault-token" = some text := by
    simp [headerValue, Option.filter, h]
  simp [extractToken, hvalue]

/-- No identity is taken from the headers: the process does not trust them, or they assert none. -/
def Unasserted (w : World) (headers : Headers) : Prop :=
  gatewayHeadersTrusted w.env = true → gatewayIdentity headers = none

theorem unasserted_of_untrusted (h : gatewayHeadersTrusted w.env = false) :
    Unasserted w headers := fun htrust => by
  rw [h] at htrust
  cases htrust

section

variable (hnone : Unasserted w headers)

include hnone

theorem resolveIdentity_unasserted :
    resolveIdentity w headers = match extractToken headers with
      | some text => tokenIdentity w text
      | none => throw ("missing authentication: supply X-Vault-Token, " ++
          "or X-Tenant-Id when behind the gateway") := by
  unfold resolveIdentity
  cases htrust : gatewayHeadersTrusted w.env with
  | false => cases extractToken headers <;> rfl
  | true =>
    rw [hnone htrust]
    cases extractToken headers <;> rfl

theorem resolveIdentity_eq_ok {identity : Identity}
    (h : (perform (resolveIdentity w headers) cache).2 = .ok identity) :
    ∃ text token claims, extractToken headers = some text ∧ isTokenRevoked w text = .ok false ∧
      Accepted w (perform (resolveIdentity w headers) cache).1.keys text token claims ∧
      identity = claims.identity := by
  rw [resolveIdentity_unasserted hnone] at h ⊢
  cases htext : extractToken headers with
  | none =>
    rw [htext] at h
    cases h
  | some text =>
    rw [htext] at h
    have houtcome := (outcome_iff_perform.mp (outcome_tokenIdentity w text cache)).1 identity h
    obtain ⟨hlive, token, claims, haccepted, hidentity⟩ := houtcome
    exact ⟨text, token, claims, rfl, hlive, haccepted, hidentity⟩

theorem resolveIdentity_of_accepted (h : Accepted w cache.keys text token claims)
    (hlive : isTokenRevoked w text = .ok false) (htext : extractToken headers = some text) :
    perform (resolveIdentity w headers) cache = (cache, .ok claims.identity) := by
  rw [resolveIdentity_unasserted hnone, htext]
  exact perform_tokenIdentity h hlive

end

theorem resolveIdentity_header (h : Accepted w cache.keys text token claims)
    (hlive : isTokenRevoked w text = .ok false) (htext : text ≠ "") :
    perform (resolveIdentity w [("x-vault-token", text)]) cache = (cache, .ok claims.identity) :=
  resolveIdentity_of_accepted (fun _ => rfl) h hlive (extractToken_header htext)

end WslVault.Core.Auth
