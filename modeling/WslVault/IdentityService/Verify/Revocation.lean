import Mathlib.Order.MinMax
import WslVault.Base.Run
import WslVault.IdentityService.Grpc
import WslVault.IdentityService.SigningKeys
import WslVault.Storage.Verify.AuthRevocation

/-!
# Revoked tokens that come back

A revocation counts until the end it was recorded with, and the first recorded end stays. A
token is accepted by the services until a minute after it expires. Requests are served at one
instant each, by the clock of the database.
-/

namespace WslVault.IdentityService

open Base Core Core.Auth Storage
  WslVault.Storage.RevocationStore

variable {tokens : Tokens} {m : TokenManager} {rows rows' : RevokedTokens} {moment : Moment}
  {text : String} {token : Jwt.Token} {claims : TokenClaims}

inductive Issued (m : TokenManager) : Jwt.Token → TokenClaims → Prop where
  | shared {now principalId tenantId policies ttl token expiresAt}
      (h : m.issueToken now principalId tenantId policies ttl = .ok (token, expiresAt)) :
      Issued m token (m.claims now principalId tenantId policies ttl false)
  | signed {now principalId tenantId policies ttl publicKey kid superuser token expiresAt}
      (h : m.issueTokenWithKey now principalId tenantId policies ttl (.ed25519 publicKey)
        (SigningKeys.header kid) superuser = .ok (token, expiresAt)) :
      Issued m token (m.claims now principalId tenantId policies ttl superuser)

variable {now : Timestamp} {secret : String}

theorem TokenManager.token_of_issueTokenWithKey {principalId tenantId : String}
    {policies : List String} {ttl : Int} {signer : Jwt.Signer} {header : Jwt.Header}
    {superuser : Bool} {expiresAt : Timestamp}
    (h : m.issueTokenWithKey now principalId tenantId policies ttl signer header superuser =
      .ok (token, expiresAt)) :
    token = ⟨header, (m.claims now principalId tenantId policies ttl superuser).payload,
      some signer⟩ := by
  unfold issueTokenWithKey at h
  split at h
  · cases h
  · cases hencode : Jwt.encode header
        (m.claims now principalId tenantId policies ttl superuser).payload signer with
    | error e =>
      rw [hencode] at h
      cases h
    | ok t =>
      rw [hencode] at h
      cases h
      exact (Jwt.encode_eq_ok.mp hencode).2

structure Genuine (m : TokenManager) (token : Jwt.Token) (claims : TokenClaims) : Prop where
  payload : token.payload = claims.payload
  iss : claims.iss = m.issuer
  aud : claims.aud = m.audience
  signature : (token.header.alg = .hs256 ∧ token.signature = some (.hmac m.secret)) ∨
    (token.header.alg = .edDSA ∧ ∃ kid publicKey, token.header.kid = some kid ∧
      token.signature = some (.ed25519 publicKey))

theorem Issued.genuine (h : Issued m token claims) : Genuine m token claims := by
  cases h with
  | shared h =>
    have htoken := TokenManager.token_of_issueTokenWithKey h
    subst htoken
    exact ⟨rfl, rfl, rfl, .inl ⟨rfl, rfl⟩⟩
  | signed h =>
    have htoken := TokenManager.token_of_issueTokenWithKey h
    subst htoken
    exact ⟨rfl, rfl, rfl, .inr ⟨rfl, _, _, rfl, rfl⟩⟩

theorem Genuine.validateToken_eq_ok (h : Genuine m token claims)
    (htext : tokens.texts text = some token) {c : TokenClaims} :
    m.validateToken tokens.texts now text = .ok c ↔
      token.header.alg = .hs256 ∧ Jwt.unix now ≤ claims.exp ∧ c = claims := by
  have hdecode : Jwt.decode tokens.texts TokenClaims.ofPayload (.hmac m.secret) m.validation now
      text = .ok c ↔ token.header.alg = .hs256 ∧ Jwt.unix now ≤ claims.exp ∧ c = claims := by
    rw [Jwt.decode_eq_ok]
    constructor
    · rintro ⟨token', htoken, halg, -, hclaims, hvalid⟩
      cases htext.symm.trans htoken
      rw [h.payload] at hclaims hvalid
      cases hclaims
      obtain ⟨⟨exp, hexp, hle⟩, -⟩ := Jwt.validate_eq_ok.mp hvalid
      cases hexp
      exact ⟨halg, by simpa [TokenManager.validation] using hle, rfl⟩
    · rintro ⟨halg, hle, rfl⟩
      have hsigned : token.signature = some (.hmac m.secret) := by
        rcases h.signature with ⟨-, hs⟩ | ⟨halg', -⟩
        · exact hs
        · cases halg.symm.trans halg'
      refine ⟨token, htext, halg, hsigned, by rw [h.payload]; rfl, ?_⟩
      rw [h.payload, Jwt.validate_eq_ok]
      refine ⟨⟨c.exp, rfl, by simpa [TokenManager.validation] using hle⟩, fun _ _ => ?_,
        fun _ _ => ?_⟩
      · exact congrArg some h.iss
      · exact congrArg some h.aud
  rw [← hdecode]
  unfold TokenManager.validateToken
  constructor
  · exact mapError_eq_ok
  · intro hok
    rw [hok]
    rfl

theorem get?_insert (rows : RevokedTokens) (row : RevokedToken) (hash : String) :
    (RevocationStore.insert rows row).get? hash =
      (rows.get? hash).or (if row.tokenHash = hash then some row else none) := by
  unfold RevocationStore.insert
  cases hinsert : rows.insert? row with
  | none =>
    obtain ⟨x, hx, hkey⟩ := Table.insert?_eq_none.mp hinsert
    by_cases hhash : row.tokenHash = hash
    · rw [Option.getD_none, Table.get?_eq_some.mpr ⟨hx, hkey.trans hhash⟩, Option.some_or]
    · rw [Option.getD_none, if_neg hhash, Option.or_none]
  | some rows' =>
    rw [Option.getD_some, Table.get?_insert? hinsert]
    by_cases hhash : row.tokenHash = hash
    · rw [if_pos hhash, if_pos hhash]
      have hfree : rows.get? hash = none :=
        Table.get?_eq_none.mpr fun x hx => hhash ▸ (Table.insert?_eq_some.mp hinsert).1 x hx
      rw [hfree, Option.none_or]
    · rw [if_neg hhash, if_neg hhash, Option.or_none]

theorem record_eq_ok {rows rows' : RevokedTokens} {fault : Option String} {now : Timestamp}
    {tokenHash tenantId principalId failure : String} {expiresAt : Int}
    (h : record rows fault now tokenHash tenantId principalId expiresAt failure = .ok rows') :
    rows' = RevocationStore.insert rows
      ⟨tokenHash, tenantId, principalId, seconds expiresAt, now⟩ := by
  unfold record fromTimestamp at h
  split at h
  · cases h
  · next t htime =>
    split at htime
    · cases htime
      split at h
      · cases h
      · cases h
        rfl
    · cases htime

theorem Ledger.step_database (tokens : Tokens) (m : TokenManager) (rows : RevokedTokens)
    (clock : Timestamp) (e : RevocationEvent) :
    ∃ rows', (Ledger.step tokens m ⟨.database rows, clock⟩ e).1 = ⟨.database rows', e.moment.now⟩ ∧
      (rows' = rows ∨ (∃ row, rows' = RevocationStore.insert rows row) ∨
        rows' = reapExpired rows e.moment.now) := by
  obtain ⟨moment, action⟩ := e
  cases action with
  | revokeToken text =>
    simp only [step, settle, revokeToken, RevocationStore.revoke, record]
    grind [Except.map, mapError_ok, mapError_error]
  | revokeTokenByHash req =>
    simp only [step, settle, revokeTokenByHash, RevocationStore.revokeByHash, record]
    grind [Except.map, mapError_ok, mapError_error]
  | reap =>
    cases hfault : moment.fault with
    | none => exact ⟨_, by simp [step, settle, reap, hfault], .inr (.inr rfl)⟩
    | some reason => exact ⟨rows, by simp [step, settle, reap, hfault], .inl rfl⟩

/-! ## Requests with the token -/

/-- A service with the checker installed, whose database answers. -/
structure Checks (tokens : Tokens) (list : RevocationList) (now : Timestamp) (w : World) :
    Prop where
  texts : w.texts = tokens.texts
  clock : w.now = now
  untrusting : gatewayHeadersTrusted w.env = false
  revocation : ∃ rows, list = .database rows ∧
    w.revocation = some (authRevocationChecker tokens.digest rows none now)

def Dead (tokens : Tokens) (m : TokenManager) (list : RevocationList) (now : Timestamp)
    (text : String) : Prop :=
  (∀ w cache headers identity, Checks tokens list now w → extractToken headers = some text →
    (perform (resolveIdentity w headers) cache).2 ≠ .ok identity) ∧
  ∀ response, validateToken tokens m list ⟨now, none⟩ text = .ok response → response.valid = false

/-- Nobody accepts the token at any time from here on. -/
def StaysDead (tokens : Tokens) (m : TokenManager) (s : Ledger) (text : String) : Prop :=
  ∀ events, Along (Ledger.step tokens m) (fun s e => s.clock ≤ e.moment.now) s events →
    ∀ now, (run (Ledger.step tokens m) s events).clock ≤ now →
      Dead tokens m (run (Ledger.step tokens m) s events).list now text

/-- The first instant at which the services refuse a token that expires then. -/
def lapse (exp : Int) : Timestamp := seconds (exp + 61)

theorem unix_le_iff {exp : Int} : Jwt.unix now ≤ exp + 60 ↔ now < lapse exp := by
  have hfloor : ∀ n e : Int, n / 1000000 ≤ e + 60 ↔ n < (e + 61) * 1000000 := by
    intro n e
    omega
  exact hfloor now exp

theorem not_listed_of_checks {w : World} (hw : Checks tokens (.database rows) now w) :
    isTokenRevoked w text = .ok false ↔ ¬ Listed tokens.digest rows now text := by
  obtain ⟨rows', hrows, hchecker⟩ := hw.revocation
  cases hrows
  have hlist : RevocationStore.isRevoked tokens.digest rows none now text = .ok false ↔
      (false = true ↔ Listed tokens.digest rows now text) := isRevoked_eq_ok
  simp only [isTokenRevoked, hchecker, authRevocationChecker]
  constructor
  · intro h
    simpa using hlist.mp (mapError_eq_ok h)
  · intro h
    rw [hlist.mpr (by simpa using h)]
    rfl

theorem isRevoked_database : isRevoked tokens (.database rows) ⟨now, none⟩ text = true ↔
      Listed tokens.digest rows now text := by
  cases hlookup : RevocationStore.isRevoked tokens.digest rows none now text with
  | error e => cases hlookup
  | ok revoked =>
    simp only [isRevoked, hlookup]
    exact isRevoked_eq_ok.mp hlookup

theorem validateToken_valid {list : RevocationList} {response : ValidateTokenResponse}
    (h : validateToken tokens m list moment text = .ok response) (hvalid : response.valid = true) :
    isRevoked tokens list moment text = false ∧
      ∃ c, m.validateToken tokens.texts moment.now text = .ok c := by
  unfold validateToken at h
  split at h
  · cases h
    cases hvalid
  · split at h
    · cases h
      cases hvalid
    · next hrevoked =>
      refine ⟨by simpa using hrevoked, ?_⟩
      split at h
      · next c hc => exact ⟨c, hc⟩
      · cases h
        cases hvalid
      · cases h

theorem TokenManager.secret_of_fromEnv {issuer audience : Option String}
    (hm : fromEnv (some secret) issuer audience = .ok m) :
    m.secret = asBytes secret ∧ secret ≠ "" := by
  simp only [fromEnv] at hm
  split at hm
  · cases hm
  · next hlong =>
    cases hm
    refine ⟨rfl, ?_⟩
    rintro rfl
    exact hlong (by decide)

def deployed (tokens : Tokens) (rows : RevokedTokens) (secret : String) (now : Timestamp) :
    World where
  texts := tokens.texts
  env := ⟨none, some secret, none, none⟩
  now := now
  jwks := .ok []
  revocation := some (authRevocationChecker tokens.digest rows none now)

theorem checks_deployed (tokens : Tokens) (rows : RevokedTokens) (secret : String)
    (now : Timestamp) : Checks tokens (.database rows) now (deployed tokens rows secret now) :=
  ⟨rfl, rfl, gatewayHeadersTrusted_of_none rfl, rows, rfl, rfl⟩

def TokenClaims.toAuth (c : TokenClaims) : Auth.TokenClaims :=
  ⟨c.sub, c.tenantId, c.policies, c.superuser, c.exp⟩

theorem Genuine.carried (h : Genuine m token claims) {c : Auth.TokenClaims} :
    Auth.TokenClaims.ofPayload token.payload = .ok c ↔ c = claims.toAuth := by
  rw [h.payload]
  constructor
  · intro hc
    cases hc
    rfl
  · rintro rfl
    rfl

section

variable (h : Genuine m token claims) (hsecret : m.secret = asBytes secret ∧ secret ≠ "")
  (htext : tokens.texts text = some token)

include h hsecret htext

theorem Genuine.accepted (hnow : now < lapse claims.exp) :
    ∃ keys, Accepted (deployed tokens rows secret now) keys text token claims.toAuth := by
  rcases h.signature with ⟨halg, hsigned⟩ | ⟨halg, kid, publicKey, hkid, hsigned⟩
  · rw [hsecret.1] at hsigned
    exact ⟨∅, htext, .inl ⟨halg, secret, rfl, hsecret.2, hsigned⟩, h.carried.mpr rfl,
      unix_le_iff.mpr hnow⟩
  · exact ⟨(∅ : AList fun _ : String => Bytes).insert kid publicKey, htext,
      .inr ⟨halg, kid, publicKey, hkid, AList.lookup_insert _, hsigned⟩, h.carried.mpr rfl,
      unix_le_iff.mpr hnow⟩

/-- A token is dead while it is listed and once it has lapsed, and at no other
time. -/
theorem Genuine.dead_iff (hne : text ≠ "") :
    Dead tokens m (.database rows) now text ↔
      Listed tokens.digest rows now text ∨ lapse claims.exp ≤ now := by
  constructor
  · intro hdead
    by_contra hnot
    obtain ⟨hlisted, hlapse⟩ := not_or.mp hnot
    obtain ⟨keys, haccepted⟩ := h.accepted hsecret htext (not_le.mp hlapse)
    have hchecks := checks_deployed tokens rows secret now
    have hresolved : perform (resolveIdentity (deployed tokens rows secret now)
        [("x-vault-token", text)]) ⟨keys, none⟩ = (⟨keys, none⟩, .ok claims.toAuth.identity) :=
      resolveIdentity_header haccepted
        ((not_listed_of_checks hchecks).mpr hlisted) hne
    exact hdead.1 _ _ _ _ hchecks (extractToken_header hne) (by rw [hresolved])
  · intro hcond
    constructor
    · intro w cache headers identity hw hextract hok
      obtain ⟨text', token', c, htext', hlive, haccepted, -⟩ :=
        resolveIdentity_eq_ok (unasserted_of_untrusted hw.untrusting) hok
      cases hextract.symm.trans htext'
      rcases hcond with hlisted | hlapse
      · exact (not_listed_of_checks hw).mp hlive hlisted
      · have hdecoded := haccepted.decoded
        rw [hw.texts] at hdecoded
        cases htext.symm.trans hdecoded
        obtain rfl := h.carried.mp haccepted.carried
        have hexp := haccepted.unexpired
        rw [hw.clock] at hexp
        exact absurd hlapse (not_le.mpr (unix_le_iff.mp hexp))
    · intro response hresponse
      by_contra hvalid
      obtain ⟨hrevoked, c, hc⟩ := validateToken_valid hresponse (by simpa using hvalid)
      rcases hcond with hlisted | hlapse
      · rw [isRevoked_database.mpr hlisted] at hrevoked
        cases hrevoked
      · obtain ⟨-, hexp, -⟩ := (h.validateToken_eq_ok htext).mp hc
        have hlate : Jwt.unix now ≤ claims.exp + 60 := le_trans hexp (by omega)
        exact absurd hlapse (not_le.mpr (unix_le_iff.mp hlate))

end

/-! ## Whole runs -/

/-- The time `d` has come, or a row stands for the text until then or longer. -/
def Guarded (tokens : Tokens) (text : String) (d : Timestamp) (s : Ledger) : Prop :=
  ∃ rows, s.list = .database rows ∧
    (d ≤ s.clock ∨ ∃ row ∈ rows, row.tokenHash = tokens.digest text ∧ d ≤ row.expiresAt)

theorem Guarded.step {d : Timestamp} {s : Ledger} {e : RevocationEvent}
    (h : Guarded tokens text d s) (htime : s.clock ≤ e.moment.now) :
    Guarded tokens text d (Ledger.step tokens m s e).1 := by
  obtain ⟨list, clock⟩ := s
  obtain ⟨rows, rfl, hguard⟩ := h
  obtain ⟨rows', hstep, hrows⟩ := Ledger.step_database tokens m rows clock e
  rw [hstep]
  refine ⟨rows', rfl, ?_⟩
  rcases hguard with hclock | ⟨row, hrow, hhash, hend⟩
  · exact .inl (hclock.trans htime)
  · rcases hrows with rfl | ⟨new, rfl⟩ | rfl
    · exact .inr ⟨row, hrow, hhash, hend⟩
    · have hget := get?_insert rows new (tokens.digest text)
      rw [Table.get?_eq_some.mpr ⟨hrow, hhash⟩, Option.some_or] at hget
      exact .inr ⟨row, (Table.get?_eq_some.mp hget).1, hhash, hend⟩
    · by_cases hreaped : row.expiresAt < e.moment.now
      · exact .inl (hend.trans hreaped.le)
      · exact .inr ⟨row, Table.mem_delete.mpr ⟨hrow, decide_eq_false hreaped⟩, hhash, hend⟩

theorem Genuine.staysDead_iff (h : Genuine m token claims)
    (hsecret : m.secret = asBytes secret ∧ secret ≠ "") (htext : tokens.texts text = some token)
    (hne : text ≠ "") {clock : Timestamp} :
    StaysDead tokens m ⟨.database rows, clock⟩ text ↔ lapse claims.exp ≤ clock ∨
        ∃ row, rows.get? (tokens.digest text) = some row ∧ lapse claims.exp ≤ row.expiresAt := by
  constructor
  · intro hdead
    cases hrow : rows.get? (tokens.digest text) with
    | none =>
      have hnow := (h.dead_iff hsecret htext hne).mp (hdead [] trivial clock le_rfl)
      rcases hnow with ⟨row, hmem, hhash, -⟩ | hlapse
      · exact absurd hhash (Table.get?_eq_none.mp hrow row hmem)
      · exact .inl hlapse
    | some row =>
      -- the instant the row comes to its end, if that is still ahead
      have hthen := (h.dead_iff hsecret htext hne).mp
        (hdead [] trivial (max clock row.expiresAt) (le_max_left _ _))
      rcases hthen with ⟨row', hmem, hhash, hlate⟩ | hlapse
      · cases hrow.symm.trans (Table.get?_eq_some.mpr ⟨hmem, hhash⟩)
        exact absurd hlate (not_lt.mpr (le_max_right _ _))
      · rcases le_max_iff.mp hlapse with hclock | hend
        · exact .inl hclock
        · exact .inr ⟨row, rfl, hend⟩
  · intro hcond events halong now hnow
    have hstart : Guarded tokens text (lapse claims.exp) ⟨.database rows, clock⟩ := by
      refine ⟨rows, rfl, ?_⟩
      rcases hcond with hclock | ⟨row, hrow, hend⟩
      · exact .inl hclock
      · obtain ⟨hmem, hhash⟩ := Table.get?_eq_some.mp hrow
        exact .inr ⟨row, hmem, hhash, hend⟩
    obtain ⟨rows', hlist, hguard⟩ :=
      halong.invariant (Guarded tokens text (lapse claims.exp))
        (fun _ _ hguard htime => hguard.step htime) hstart
    rw [hlist, h.dead_iff hsecret htext hne]
    rcases hguard with hclock | ⟨row, hmem, hhash, hend⟩
    · exact .inr (hclock.trans hnow)
    · by_cases hlive : now < row.expiresAt
      · exact .inl ⟨row, hmem, hhash, hlive⟩
      · exact .inr (hend.trans (not_lt.mp hlive))

/-- What a revocation leaves on the list: the row that was there, or one that ends
with the token if it is valid under the shared secret and in an hour if not. -/
theorem revokeToken_database {list : RevocationList}
    (h : revokeToken tokens m (.database rows) moment text = .ok list) :
    text ≠ "" ∧ ∃ rows', list = .database rows' ∧ ∃ row,
      rows'.get? (tokens.digest text) = (rows.get? (tokens.digest text)).or (some row) ∧
      row.expiresAt = seconds (revocationOf tokens m moment.now text).2.2 := by
  unfold revokeToken at h
  split at h
  · cases h
  · next hne =>
    refine ⟨hne, ?_⟩
    obtain ⟨rows', hrows, rfl⟩ := map_eq_ok.mp h
    rw [record_eq_ok (mapError_eq_ok hrows)]
    exact ⟨_, rfl, _, by rw [get?_insert, if_pos rfl], rfl⟩

/-- The hour of a token that is not valid under the shared secret is enough exactly
if the token lapses within it; the expiry of one that is valid never is. -/
theorem Genuine.lapse_le_revocationOf (h : Genuine m token claims)
    (htext : tokens.texts text = some token) :
    lapse claims.exp ≤ seconds (revocationOf tokens m now text).2.2 ↔
      (token.header.alg = .edDSA ∨ claims.exp < Jwt.unix now) ∧
        claims.exp + 61 ≤ Jwt.unix now + 3600 := by
  have hmono : ∀ a b : Int, a * 1000000 ≤ b * 1000000 ↔ a ≤ b := by
    intro a b
    omega
  refine (hmono _ _).trans ?_
  cases hvalid : m.validateToken tokens.texts now text with
  | ok c =>
    obtain ⟨halg, hle, rfl⟩ := (h.validateToken_eq_ok htext).mp hvalid
    simp only [revocationOf, hvalid, halg, reduceCtorEq, false_or]
    omega
  | error e =>
    have hunder : token.header.alg = .edDSA ∨ claims.exp < Jwt.unix now := by
      rcases h.signature with ⟨halg, -⟩ | ⟨halg, -⟩
      · right
        by_contra hlive
        cases hvalid.symm.trans ((h.validateToken_eq_ok htext).mpr ⟨halg, not_lt.mp hlive, rfl⟩)
      · exact .inl halg
    simp only [revocationOf, hvalid, hunder, true_and]

/-- Once revoked, a token of the service is never accepted again, exactly if it has
lapsed already, or the row that was on the list for it stays until it lapses, or
there was no row, the token is not valid under the shared secret, and it lapses
within the hour. -/
theorem revoked_stays_dead_iff {secret : String} {issuer audience : Option String}
    (hm : TokenManager.fromEnv (some secret) issuer audience = .ok m)
    (hissued : Issued m token claims) (htext : tokens.texts text = some token)
    {list : RevocationList}
    (hrevoked : revokeToken tokens m (.database rows) moment text = .ok list) :
    StaysDead tokens m ⟨list, moment.now⟩ text ↔ seconds (claims.exp + 61) ≤ moment.now ∨
      (∃ row, rows.get? (tokens.digest text) = some row ∧
        seconds (claims.exp + 61) ≤ row.expiresAt) ∨
      (rows.get? (tokens.digest text) = none ∧
        (token.header.alg = .edDSA ∨ claims.exp < Jwt.unix moment.now) ∧
        claims.exp + 61 ≤ Jwt.unix moment.now + 3600) := by
  have hgenuine := hissued.genuine
  obtain ⟨hne, rows', rfl, row, hget, hend⟩ := revokeToken_database hrevoked
  rw [hgenuine.staysDead_iff (TokenManager.secret_of_fromEnv hm) htext hne, hget]
  refine or_congr Iff.rfl ?_
  cases hrow : rows.get? (tokens.digest text) with
  | some old => simp [lapse]
  | none =>
    simp [hend, hgenuine.lapse_le_revocationOf htext]

def sharedSecret : String := "0123456789abcdef0123456789abcdef"

def sharedManager : TokenManager := ⟨asBytes sharedSecret, "wslvault", "wslvault"⟩

def hourToken : Jwt.Token where
  header := ⟨.hs256, none⟩
  payload := (sharedManager.claims 0 "principal" "tenant" [] 3600 false).payload
  signature := some (.hmac sharedManager.secret)

def hourTokens : Tokens where
  digest := id
  texts := fun text => if text = "token" then some hourToken else none

def hourList : RevokedTokens :=
  ⟨[⟨"token", "tenant", "principal", seconds 3600, seconds 10⟩], by simp⟩

theorem revokeToken_hour :
    revokeToken hourTokens sharedManager (.database .empty) ⟨seconds 10, none⟩ "token" =
      .ok (.database hourList) := rfl

/-- A token revoked after ten seconds is accepted again when its hour is over. -/
theorem revoked_token_accepted_again :
    sharedManager.issueToken 0 "principal" "tenant" [] 3600 = .ok (hourToken, seconds 3600) ∧
      revokeToken hourTokens sharedManager (.database .empty) ⟨seconds 10, none⟩ "token" =
        .ok (.database hourList) ∧
      (perform (resolveIdentity (deployed hourTokens hourList sharedSecret (seconds 3600))
        [("x-vault-token", "token")]) .empty).2 =
          .ok { tenantId := "tenant", principalId := "principal", policies := [],
                expiresAt := some 3600, superuser := false } ∧
      validateToken hourTokens sharedManager (.database hourList) ⟨seconds 3600, none⟩ "token" =
        .ok ⟨true, "principal", "tenant", []⟩ := by
  refine ⟨rfl, revokeToken_hour, ?_, rfl⟩
  have haccepted : Accepted (deployed hourTokens hourList sharedSecret (seconds 3600))
      JwksCache.empty.keys "token" hourToken ⟨"principal", "tenant", [], false, 3600⟩ :=
    ⟨rfl, .inl ⟨rfl, sharedSecret, rfl, by decide, rfl⟩, rfl, by decide⟩
  rw [resolveIdentity_header haccepted rfl (by decide)]
  rfl

theorem revoked_hour_token_returns :
    ¬ StaysDead hourTokens sharedManager ⟨.database hourList, seconds 10⟩ "token" := by
  have hissued : Issued sharedManager hourToken
      (sharedManager.claims 0 "principal" "tenant" [] 3600 false) :=
    .shared (show sharedManager.issueToken 0 _ _ _ _ = .ok (hourToken, seconds 3600) from rfl)
  have hm : TokenManager.fromEnv (some sharedSecret) none none = .ok sharedManager := rfl
  rw [revoked_stays_dead_iff hm hissued rfl revokeToken_hour]
  decide

end WslVault.IdentityService
