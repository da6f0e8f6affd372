import WslVault.Core.Verify.Auth
import WslVault.Storage.RevocationStore

/-!
# Privileged identities and the revocation list

The revocation list is read only where the service has installed a checker at its start. The
region health, transit and audit services install none.
-/

namespace WslVault.Storage.RevocationStore

open Base Core Core.Auth

variable {digest : String → String} {rows rows' : RevokedTokens} {now : Timestamp} {text : String}

/-- A row stands for the text that has not come to its end. -/
def Listed (digest : String → String) (rows : RevokedTokens) (now : Timestamp) (text : String) :
    Prop :=
  ∃ row ∈ rows, row.tokenHash = digest text ∧ now < row.expiresAt

theorem isRevoked_eq_ok {b : Bool} :
    isRevoked digest rows none now text = .ok b ↔ (b = true ↔ Listed digest rows now text) := by
  have hany : (rows.rows.any fun r => r.tokenHash == digest text && decide (now < r.expiresAt)) =
      true ↔ Listed digest rows now text := by
    simp [Listed, Table.mem_def]
  rw [← hany]
  simp only [isRevoked, Except.ok.injEq]
  constructor
  · rintro rfl
    exact Iff.rfl
  · intro h
    exact (Bool.eq_iff_iff.mpr h).symm

/-- A service: what texts decode to, its environment, and whether it has installed
the checker. -/
structure Process where
  texts : Jwt.Texts
  env : Env
  digest : String → String
  checkerInstalled : Bool

/-- What a request finds: the time, the answer of the JWKS endpoint, the table of
revoked tokens, and the failure of the database if it fails. -/
structure Surroundings where
  now : Timestamp
  jwks : Except AuthFailure (List JwkEntry)
  revoked : RevokedTokens
  fault : Option String

def Process.world (p : Process) (r : Surroundings) : World where
  texts := p.texts
  env := p.env
  now := r.now
  jwks := r.jwks
  revocation :=
    if p.checkerInstalled then some (authRevocationChecker p.digest r.revoked r.fault r.now)
    else none

theorem not_listed_of_checker {p : Process} {r : Surroundings} (h : p.checkerInstalled = true)
    (hlive : isTokenRevoked (p.world r) text = .ok false) :
    ¬ Listed p.digest r.revoked r.now text := by
  simp only [isTokenRevoked, Process.world, h, if_true, authRevocationChecker] at hlive
  have hlookup := mapError_eq_ok hlive
  cases hfault : r.fault with
  | some reason =>
    rw [hfault] at hlookup
    cases hlookup
  | none =>
    rw [hfault] at hlookup
    simpa using isRevoked_eq_ok.mp hlookup

/-- The token says of itself what makes its bearer privileged. -/
def Grants (env : Env) (token : Jwt.Token) (identity : Identity) : Prop :=
  (identity.superuser = true → token.payload.superuser = some true) ∧
    (adminPolicyName env ∈ identity.policies →
      ∃ policies, token.payload.policies = some policies ∧ adminPolicyName env ∈ policies)

theorem grants_of_accepted {w : World} {keys : AList fun _ : String => Bytes} {token : Jwt.Token}
    {claims : TokenClaims} (h : Accepted w keys text token claims) :
    Grants w.env token claims.identity := by
  obtain ⟨-, -, -, hpolicies, hsuperuser⟩ := TokenClaims.ofPayload_eq_ok h.carried
  constructor
  · intro htrue
    rw [show claims.identity.superuser = claims.superuser from rfl, ← hsuperuser] at htrue
    cases hp : token.payload.superuser with
    | none => simp [hp] at htrue
    | some b => simpa [hp] using htrue
  · intro hmem
    rw [show claims.identity.policies = claims.policies from rfl, ← hpolicies] at hmem
    cases hp : token.payload.policies with
    | none => simp [hp] at hmem
    | some policies => exact ⟨policies, rfl, by simpa [hp] using hmem⟩

/-- The bearer of a privileged identity presented a token with a good signature,
unexpired, not listed, that says so itself. -/
def Backed (p : Process) (r : Surroundings) (keys : AList fun _ : String => Bytes)
    (headers : Headers) (identity : Identity) : Prop :=
  ∃ text token claims, extractToken headers = some text ∧
    Accepted (p.world r) keys text token claims ∧ ¬ Listed p.digest r.revoked r.now text ∧
    Grants p.env token identity

/-- Requests with the same token headers get the same result, and a privileged
identity is returned only where it is backed. -/
def FromTokenAlone (p : Process) (r : Surroundings) : Prop :=
  (∀ cache headers headers', SameTokenHeaders headers headers' →
    perform (resolveIdentity (p.world r) headers) cache =
      perform (resolveIdentity (p.world r) headers') cache) ∧
  ∀ cache headers identity, (perform (resolveIdentity (p.world r) headers) cache).2 = .ok identity →
    isPlatformAdmin p.env identity = true →
    Backed p r (perform (resolveIdentity (p.world r) headers) cache).1.keys headers identity

/-- Without trust in gateway headers identities come from verified tokens alone,
exactly if the service has installed the checker or no listed token would be
accepted with privileges. -/
theorem identity_from_token_alone_iff (p : Process) (r : Surroundings)
    (htrust : gatewayHeadersTrusted p.env = false) : FromTokenAlone p r ↔
      (p.checkerInstalled = true ∨ ∀ keys text token claims, text ≠ "" →
        Accepted (p.world r) keys text token claims → isPlatformAdmin p.env claims.identity = true →
        ¬ Listed p.digest r.revoked r.now text) := by
  have hnone {headers : Headers} : Unasserted (p.world r) headers := unasserted_of_untrusted htrust
  constructor
  · rintro ⟨-, hbacked⟩
    cases hchecker : p.checkerInstalled with
    | true => exact .inl rfl
    | false =>
      right
      intro keys text token claims htext haccepted hadmin
      -- nobody reads the list, so whoever presents the text is taken for its bearer
      have hlive : isTokenRevoked (p.world r) text = .ok false := by
        simp [isTokenRevoked, Process.world, hchecker]
      have hresolved :
          perform (resolveIdentity (p.world r) [("x-vault-token", text)]) ⟨keys, none⟩ =
            (⟨keys, none⟩, .ok claims.identity) :=
        resolveIdentity_header haccepted hlive htext
      obtain ⟨text', -, -, htext', -, hnot, -⟩ :=
        hbacked ⟨keys, none⟩ _ claims.identity (by rw [hresolved]) hadmin
      rw [extractToken_header htext] at htext'
      cases htext'
      exact hnot
  · intro hcond
    refine ⟨fun cache headers headers' hsame => ?_, fun cache headers identity hok hadmin => ?_⟩
    · rw [resolveIdentity_unasserted hnone, resolveIdentity_unasserted hnone,
        extractToken_congr hsame]
    · obtain ⟨text, token, claims, htext, hlive, haccepted, rfl⟩ :=
        resolveIdentity_eq_ok hnone hok
      refine ⟨text, token, claims, htext, haccepted, ?_, grants_of_accepted haccepted⟩
      obtain hchecker | hnone := hcond
      · exact not_listed_of_checker hchecker hlive
      · exact hnone _ _ token claims (extractToken_ne_empty htext) haccepted hadmin

/-- A superuser's token under the shared secret, good for an hour. -/
def operatorToken : Jwt.Token where
  header := ⟨.hs256, none⟩
  payload := ⟨some "op", some "ops", some [], some true, none, none, some 0, some 3600⟩
  signature := some (.hmac (asBytes "secret"))

def regionHealth : Process where
  texts := fun text => if text = "token" then some operatorToken else none
  env := ⟨none, some "secret", none, none⟩
  digest := id
  checkerInstalled := false

def afterRevocation : Surroundings where
  now := seconds 60
  jwks := .ok []
  revoked := ⟨[⟨"token", "ops", "op", seconds 3600, seconds 30⟩], by simp⟩
  fault := none

/-- The health service takes a revoked superuser token for its bearer. -/
theorem revoked_superuser_resolved :
    Listed regionHealth.digest afterRevocation.revoked afterRevocation.now "token" ∧
      (perform (resolveIdentity (regionHealth.world afterRevocation)
        [("x-vault-token", "token")]) .empty).2 =
        .ok { tenantId := "ops", principalId := "op", policies := [], expiresAt := some 3600,
              superuser := true } := by
  have haccepted : Accepted (regionHealth.world afterRevocation) JwksCache.empty.keys "token"
      operatorToken ⟨"op", "ops", [], true, 3600⟩ :=
    ⟨rfl, .inl ⟨rfl, "secret", rfl, by decide, rfl⟩, rfl, by decide⟩
  refine ⟨⟨_, List.mem_singleton.mpr rfl, rfl, by decide⟩, ?_⟩
  rw [resolveIdentity_header haccepted rfl (by decide)]
  rfl

theorem region_health_with_checker : gatewayHeadersTrusted regionHealth.env = false ∧
      FromTokenAlone { regionHealth with checkerInstalled := true } afterRevocation :=
  ⟨by decide, (identity_from_token_alone_iff { regionHealth with checkerInstalled := true }
    afterRevocation (by decide)).mpr (.inl rfl)⟩

end WslVault.Storage.RevocationStore
