import WslVault.IdentityService.Verify.FactorLocks

/-!
# No token without the second factor

Whatever other requests do meanwhile, the notes of a run say for every token how it was come
by (`Granted`).
-/

namespace WslVault.IdentityService.Login

open Core Base Storage LoginSystem ApiKeyManager

def Note.takenId : Note → Option String
  | took _ id _ _ => some id
  | _ => none

/-- The request of a session, with its key as it was stored when the request arrived, and what
is noted since. -/
def During (notes : List Note) (i : Nat) (request : Request) (key : Option ApiKeyRecord)
    (since : List Note) : Prop :=
  ∃ before, notes = before ++ .arrived i request key :: since ∧ ∀ n ∈ since, n.arrival ≠ some i

/-- A challenge was issued to a login that had read this key, which requires the factor, and
has not been taken since. -/
def Challenged (notes : List Note) (id : String) (pending : PendingChallenge)
    (key : ApiKeyRecord) (created : Timestamp) : Prop :=
  ∃ before after j rawKey found since,
    notes = before ++ .issued j id pending :: after ∧ (∀ n ∈ after, n.takenId ≠ some id) ∧
    During before j (.exchange rawKey) found since ∧
    [.validated j key, .challenged j pending created].Sublist since ∧
    key.mfaRequired = true ∧ pending = pendingOf (validationResult key) created

/-- The request of a session, with its code, has taken a challenge, in time and before anybody
else. -/
def Took (notes : List Note) (i : Nat) (id code : String) (pending : PendingChallenge)
    (key : ApiKeyRecord) (created : Timestamp) (since : List Note) : Prop :=
  ∃ before now, notes = before ++ .took i id pending now :: since ∧
    Challenged before id pending key created ∧
    (∃ found start, During before i (.verify id code) found start) ∧
    Jwt.unix now < Jwt.unix created + challengeTtl ∧ ∀ n ∈ since, n.arrival ≠ some i

/-- The secret is that of a confirmed enrolment of the key. -/
def Service.Opens (svc : Service) (enrolment : Option TotpEnrolment) (apiKeyId : Uuid)
    (secret : String) : Prop :=
  ∃ e crypto, enrolment = some e ∧ e.apiKeyId = apiKeyId ∧ e.isActive = true ∧
    svc.crypto = some crypto ∧ crypto.unwrap e.tenantId e.wrappedSecret apiKeyId = .ok secret

/-- The commit has used the factor up: the recorded step rises to its step, or an unused
recovery code is marked as used. -/
def Factor.Spent (before after : FactorRows) : Factor → Prop
  | totp step => ∃ e, before.enrolment = some e ∧ e.lastUsedStep < step ∧
    after.enrolment = some { e with lastUsedStep := step }
  | recovery codeHashes => ∃ c ∈ before.codes, c.codeHash ∈ codeHashes ∧ c.usedAt = none ∧
    ∃ now, { c with usedAt := some now } ∈ after.codes

/-- The code of a login was shown to be a factor of the key. -/
def Shown (svc : Service) (since : List Note) (i : Nat) (apiKeyId : Uuid) (code : String)
    (factor : Factor) : Prop :=
  ∃ enrolment secret now,
    [.enrolment i enrolment, .proved i code secret factor now].Sublist since ∧
    svc.Opens enrolment apiKeyId secret ∧ svc.Shows secret code now factor

/-- It was, and then the factor was used up. -/
def Proven (svc : Service) (since : List Note) (i : Nat) (apiKeyId : Uuid) (code : String) :
    Prop :=
  ∃ factor before after shown more,
    since = shown ++ .accepted i apiKeyId factor before after :: more ∧
    Shown svc shown i apiKeyId code factor ∧ factor.Spent before after

/-- How a token was come by: by a login with a key that did not require the factor when the
login began, or by a challenge and a factor of the key, whose rights the token has as they
were when the challenge was issued. -/
def Granted (svc : Service) (notes : List Note) (i : Nat) (apiKeyId : Uuid)
    (response : ApiKeyAuthResponse) : Prop :=
  (∃ rawKey found since, During notes i (.exchange rawKey) found since ∧
    ∀ key, found = some key → key.id = apiKeyId ∧ key.mfaRequired = false) ∨
  ∃ id code pending key created since, Took notes i id code pending key created since ∧
    Proven svc since i apiKeyId code ∧ key.id = apiKeyId ∧
    ∃ claims, Stamped svc.state.tokenManager response.token apiKeyId.toString key.tenantId
      key.policies key.isSuperuser claims

section Notes

variable {ns since : List Note} {i : Nat} {request : Request} {found : Option ApiKeyRecord}
  {id code : String} {pending : PendingChallenge} {key : ApiKeyRecord} {created : Timestamp}
  {o : Option Note}

theorem forall_append_toList {p : Note → Prop} (h : ∀ n ∈ since, p n) (ho : ∀ n, o = some n → p n) :
    ∀ n ∈ since ++ o.toList, p n := by
  intro n hn
  rcases List.mem_append.mp hn with hn | hn
  · exact h n hn
  · exact ho n (Option.mem_toList.mp hn)

theorem During.append (h : During ns i request found since)
    (ho : ∀ n, o = some n → n.arrival ≠ some i) :
    During (ns ++ o.toList) i request found (since ++ o.toList) := by
  obtain ⟨before, rfl, hsince⟩ := h
  exact ⟨before, by rw [List.append_assoc, List.cons_append], forall_append_toList hsince ho⟩

theorem Challenged.append (h : Challenged ns id pending key created)
    (ho : ∀ n, o = some n → n.takenId ≠ some id) :
    Challenged (ns ++ o.toList) id pending key created := by
  obtain ⟨before, after, j, rawKey, found, since, rfl, hunused, h⟩ := h
  exact ⟨before, after ++ o.toList, j, rawKey, found, since,
    by rw [List.append_assoc, List.cons_append], forall_append_toList hunused ho, h⟩

theorem Took.append (h : Took ns i id code pending key created since)
    (ho : ∀ n, o = some n → n.arrival ≠ some i) :
    Took (ns ++ o.toList) i id code pending key created (since ++ o.toList) := by
  obtain ⟨before, now, rfl, hchallenged, hduring, hlive, hsince⟩ := h
  exact ⟨before, now, by rw [List.append_assoc, List.cons_append], hchallenged, hduring, hlive,
    forall_append_toList hsince ho⟩

theorem Challenged.pending_eq (h : Challenged ns id pending key created) :
    pending = pendingOf (validationResult key) created := by
  obtain ⟨_, _, _, _, _, _, -, -, -, -, -, hpending⟩ := h
  exact hpending

end Notes

/-! ## What a login knows -/

/-- What a login with a key knows, where the key was `found` when the login arrived. -/
def Exchanging (svc : Service) (sys : LoginSystem) (rawKey : String) (i : Nat)
    (found : Option ApiKeyRecord) (since : List Note) : Phase → Prop
  | .start => ∀ key, found = some key →
    ∃ key', findByHash sys.backend (svc.hashKey rawKey) = some key' ∧ key.Evolved key'
  | .touching result => ∃ key, .validated i key ∈ since ∧ result = validationResult key ∧
    ∀ key₀, found = some key₀ → key₀.Evolved key
  | .validated result => ∃ key, .validated i key ∈ since ∧ result = validationResult key ∧
    ∀ key₀, found = some key₀ → key₀.Evolved key
  | .granting result =>
    ∀ key, found = some key → key.id = result.keyId ∧ key.mfaRequired = false
  | .challenging pending => ∃ key created,
    [.validated i key, .challenged i pending created].Sublist since ∧ key.mfaRequired = true ∧
      pending = pendingOf (validationResult key) created
  | _ => True

/-- What a login with a challenge knows since it took the challenge. -/
def Proving (svc : Service) (since : List Note) (i : Nat) (code : String) : Phase → Prop
  | .proving pending secret =>
    ∃ enrolment, .enrolment i enrolment ∈ since ∧ svc.Opens enrolment pending.apiKeyId secret
  | .consumed pending factor => Shown svc since i pending.apiKeyId code factor
  | .accepted pending _ => Proven svc since i pending.apiKeyId code
  | _ => True

def Knows (svc : Service) (ns : List Note) (sys : LoginSystem) (i : Nat) : Request × Phase → Prop
  | (.exchange rawKey, phase) => ∃ found since, During ns i (.exchange rawKey) found since ∧
    Exchanging svc sys rawKey i found since phase
  | (.verify id code, phase) =>
    (phase = .start → ∃ found since, During ns i (.verify id code) found since) ∧
    ∀ pending, phase.pending = some pending → ∃ key created since,
      Took ns i id code pending key created since ∧ Proving svc since i code phase
  | (.revoke _ _, _) => False
  | (.rotate _ _, _) => False
  | _ => True

def Holds (ns : List Note) (sys : LoginSystem) : Prop :=
  ∀ id pending, sys.challenges.lookup id = some pending →
    ∃ key created, Challenged ns id pending key created

structure Sound (svc : Service) (ns : List Note) (s : LoginSessions) :
    Prop where
  held : Holds ns s.db
  session : ∀ i x, s.current.lookup i = some x → Knows svc ns s.db i x
  tokens : ∀ before i apiKeyId response after,
    ns = before ++ .token i apiKeyId response :: after → Granted svc before i apiKeyId response

variable {x : Request × Phase}

section Turn

variable {svc : Service} {sys sys' : LoginSystem} {others : List (Request × Phase)} {m : Moment}
  {request : Request} {phase next : Phase} {reply : Response} {i : Nat} {ns since : List Note}
  {found : Option ApiKeyRecord} {rawKey : String} {o : Option Note}

theorem Exchanging.append (h : Exchanging svc sys rawKey i found since phase)
    (hkeeps : Backend.Keeps sys.backend sys'.backend) (o : Option Note) :
    Exchanging svc sys' rawKey i found (since ++ o.toList) phase := by
  have hsub : since.Sublist (since ++ o.toList) := List.sublist_append_left _ _
  cases phase with
  | start =>
    intro key hkey
    obtain ⟨key', hkey', hevolved⟩ := h key hkey
    obtain ⟨key'', hkey'', hevolved'⟩ := hkeeps.after hkey'
    exact ⟨key'', hkey'', hevolved.trans hevolved'⟩
  | touching result | validated result =>
    obtain ⟨key, hmem, hresult, hfound⟩ := h
    exact ⟨key, hsub.subset hmem, hresult, hfound⟩
  | granting result => exact h
  | challenging pending =>
    obtain ⟨key, created, hnotes, hkey⟩ := h
    exact ⟨key, created, hnotes.trans hsub, hkey⟩
  | _ => trivial

theorem Shown.append {apiKeyId : Uuid} {code : String} {factor : Factor}
    (h : Shown svc since i apiKeyId code factor) (more : List Note) :
    Shown svc (since ++ more) i apiKeyId code factor := by
  obtain ⟨enrolment, secret, now, hnotes, h⟩ := h
  exact ⟨enrolment, secret, now, hnotes.trans (List.sublist_append_left _ _), h⟩

theorem Proving.append {code : String} (h : Proving svc since i code phase) (o : Option Note) :
    Proving svc (since ++ o.toList) i code phase := by
  cases phase with
  | proving pending secret =>
    obtain ⟨enrolment, hmem, hopens⟩ := h
    exact ⟨enrolment, List.mem_append_left _ hmem, hopens⟩
  | consumed pending factor => exact Shown.append h _
  | accepted pending factor =>
    obtain ⟨factor, before, after, shown, more, rfl, h⟩ := h
    exact ⟨factor, before, after, shown, more ++ o.toList,
      by rw [List.append_assoc, List.cons_append], h⟩
  | _ => trivial

theorem Knows.append (h : Knows svc ns sys i x) (hkeeps : Backend.Keeps sys.backend sys'.backend)
    (ho : ∀ n, o = some n → n.arrival ≠ some i) : Knows svc (ns ++ o.toList) sys' i x := by
  obtain ⟨request, phase⟩ := x
  cases request with
  | exchange rawKey =>
    obtain ⟨found, since, hduring, hexchanging⟩ := h
    exact ⟨found, _, hduring.append ho, hexchanging.append hkeeps o⟩
  | verify id code =>
    refine ⟨fun hstart => ?_, fun pending hpending => ?_⟩
    · obtain ⟨found, since, hduring⟩ := h.1 hstart
      exact ⟨found, _, hduring.append ho⟩
    · obtain ⟨key, created, since, htook, hproving⟩ := h.2 pending hpending
      exact ⟨key, created, _, htook.append ho, hproving.append o⟩
  | revoke keyId tenantId | rotate keyId tenantId => exact h.elim
  | enroll rawKey | confirm rawKey code | recoveryCodes rawKey code => trivial

theorem LoginSystem.Goes.exchanging (h : Goes svc sys others m (.exchange rawKey) phase sys' next)
    (hknows : Exchanging svc sys rawKey i found since phase) : Exchanging svc sys' rawKey i found
      (since ++ (Note.went svc sys sys' i m (.exchange rawKey) phase next).toList) next := by
  have hread : ∀ {rawKey' : String} {backend : Backend} {result : ApiKeyValidationResult},
      (Request.exchange rawKey).rawKey = some rawKey' →
      validateKey svc.hashKey m.now sys.backend rawKey' = .ok (backend, result) → phase = .start →
      ∃ key, .validated i key ∈
          since ++ (Note.went svc sys sys' i m (.exchange rawKey) .start next).toList ∧
        result = validationResult key ∧ ∀ key₀, found = some key₀ → key₀.Evolved key := by
    rintro rawKey' backend result ⟨⟩ hvalid rfl
    obtain ⟨-, key, hkey, -, -, -, hresult⟩ := validateKey_eq_ok.mp hvalid
    have hnote : Note.went svc sys sys' i m (.exchange rawKey) .start next =
        some (.validated i key) := congrArg (Option.map _) hkey
    refine ⟨key, ?_, hresult, fun key₀ hfound => ?_⟩
    · rw [hnote]
      exact List.mem_append_right _ (List.mem_singleton_self _)
    · obtain ⟨key', hkey', hevolved⟩ := hknows key₀ hfound
      cases hkey.symm.trans hkey'
      exact hevolved
  cases h with
  | read hkey hvalid => exact hread hkey hvalid rfl
  | readMemory hkey _ hvalid => exact hread hkey hvalid rfl
  | touch | untouched =>
    have hvalidated : Exchanging svc sys rawKey i found since (.validated _) := hknows
    exact hvalidated.append (.refl _) none
  | challenge hmfa =>
    obtain ⟨key, hmem, rfl, -⟩ := hknows
    refine ⟨key, m.now, ?_, hmfa, rfl⟩
    exact (List.singleton_sublist.mpr hmem).append (List.Sublist.refl _)
  | grant hmfa =>
    obtain ⟨key, -, rfl, hevolved⟩ := hknows
    intro key₀ hfound
    have hkey₀ := hevolved key₀ hfound
    refine ⟨hkey₀.id.symm, ?_⟩
    cases hflag : key₀.mfaRequired with
    | false => rfl
    | true => exact absurd (hkey₀.mfaRequired hflag) (by simpa [validationResult] using hmfa)

variable {id : String} {n : Note}

theorem opens_of_enrolmentSecret {tenantId secret : String} {apiKeyId : Uuid}
    (h : sys.enrolmentSecret svc m verifyUse tenantId apiKeyId = .ok secret) :
    svc.Opens (MfaStore.find sys.mfa apiKeyId) apiKeyId secret := by
  unfold enrolmentSecret at h
  split at h
  · next crypto hcrypto _ =>
    split at h
    · cases h
    · cases h
    · cases h
    · split at h
      · cases h
      · next e he =>
        obtain ⟨hfind, hactive⟩ := Option.filter_eq_some_iff.mp he
        refine ⟨e, crypto, hfind, (Table.get?_eq_some.mp hfind).2, ?_, hcrypto, mapError_eq_ok h⟩
        simpa [verifyUse] using hactive
  · cases h

theorem spent_of_usable {mfa : MfaTables} {k : Uuid} {factor : Factor} (now : Timestamp)
    (h : factor.Usable mfa k) :
    factor.Spent (factorRows mfa k) (factorRows (spend mfa now k factor) k) := by
  cases factor with
  | totp step =>
    obtain ⟨e, he, hlt⟩ := stepFresh_iff.mp h
    refine ⟨e, he, hlt, ?_⟩
    have hfresh : MfaStore.isFresh k step e = true := by
      simp [MfaStore.isFresh, (Table.get?_eq_some.mp he).2, hlt]
    rw [factorRows, spend, MfaStore.tryConsumeStep, MfaStore.find, Table.get?_update,
      show mfa.totp.get? k = some e from he, Option.map_some, if_pos hfresh]
  | recovery codeHashes =>
    obtain ⟨c, hc, hunused⟩ := List.any_eq_true.mp h
    have hfields := hunused
    simp only [MfaStore.isUnused, Bool.and_eq_true, beq_iff_eq, List.contains_iff_mem,
      Option.isNone_iff_eq_none] at hfields
    obtain ⟨⟨rfl, hhash⟩, hnone⟩ := hfields
    refine ⟨c, Table.mem_select.mpr ⟨hc, beq_self_eq_true _⟩, hhash, hnone, now,
      Table.mem_select.mpr ⟨?_, beq_self_eq_true _⟩⟩
    rw [spend, MfaStore.consumeRecoveryCode, Table.mem_update]
    exact ⟨c, hc, if_pos hunused⟩

theorem LoginSystem.Goes.verifying {code : String}
    (h : Goes svc sys others m (.verify id code) phase sys' next) (hheld : Holds ns sys)
    (hholding : Holding sys (.verify id code, phase))
    (hknows : Knows svc ns sys i (.verify id code, phase)) :
    Knows svc (ns ++ (Note.went svc sys sys' i m (.verify id code) phase next).toList) sys' i
      (.verify id code, next) := by
  refine ⟨fun hstart => ?_, fun pending hpending => ?_⟩
  · cases h <;> cases hstart
  -- what was known since the challenge was taken, and what the turn adds to it
  have hgoesOn : phase.pending = some pending → (∀ since, Proving svc since i code phase →
      Proving svc (since ++ (Note.went svc sys sys' i m (.verify id code) phase next).toList) i
        code next) → ∃ key created since,
      Took (ns ++ (Note.went svc sys sys' i m (.verify id code) phase next).toList) i id code
        pending key created since ∧ Proving svc since i code next := by
    intro hphase hnext
    obtain ⟨key, created, since, htook, hproving⟩ := hknows.2 pending hphase
    exact ⟨key, created, _, htook.append fun n hn => Note.arrival_went hn i,
      hnext since hproving⟩
  cases h with
  | take hlookup hlive =>
    cases hpending
    obtain ⟨key, created, hchallenged⟩ := hheld id _ hlookup
    rw [hchallenged.pending_eq] at hlive
    exact ⟨key, created, [], ⟨ns, m.now, rfl, hchallenged, hknows.1 rfl, hlive,
      fun n hn => absurd hn List.not_mem_nil⟩, trivial⟩
  | found hsecret =>
    cases hpending
    refine hgoesOn rfl fun since _ => ⟨_, ?_, opens_of_enrolmentSecret hsecret⟩
    exact List.mem_append_right _ (List.mem_singleton_self _)
  | missed =>
    cases hpending
    exact hgoesOn rfl fun since _ => trivial
  | consume hproof =>
    cases hpending
    refine hgoesOn rfl fun since ⟨enrolment, hmem, hopens⟩ => ?_
    refine ⟨enrolment, _, m.now, ?_, hopens, (prove_eq_matched hproof).1⟩
    exact (List.singleton_sublist.mpr hmem).append (List.Sublist.refl _)
  | accept =>
    cases hpending
    refine hgoesOn rfl fun since hshown => ⟨_, _, _, since, [], rfl, hshown, ?_⟩
    exact spent_of_usable m.now (hholding _ _ rfl)
  | read hkey => cases hkey
  | readMemory hkey => cases hkey
  | touch => cases hpending
  | untouched => cases hpending

theorem LoginSystem.Goes.knows (h : Goes svc sys others m request phase sys' next)
    (hheld : Holds ns sys) (hholding : Holding sys (request, phase))
    (hknows : Knows svc ns sys i (request, phase)) :
    Knows svc (ns ++ (Note.went svc sys sys' i m request phase next).toList) sys' i
      (request, next) := by
  cases request with
  | exchange rawKey =>
    obtain ⟨found, since, hduring, hexchanging⟩ := hknows
    exact ⟨found, _, hduring.append fun n hn => Note.arrival_went hn i, h.exchanging hexchanging⟩
  | verify id code => exact h.verifying hheld hholding hknows
  | revoke keyId tenantId | rotate keyId tenantId => exact hknows.elim
  | enroll rawKey | confirm rawKey code | recoveryCodes rawKey code => trivial

theorem taken_of_went
    (hnote : Note.went svc sys sys' i m request phase next = some n) (h : n.takenId = some id) :
    ∃ code pending, request = .verify id code ∧ next = .taken pending := by
  cases Note.went_of_eq hnote with
  | took =>
    cases h
    exact ⟨_, _, rfl, rfl⟩
  | _ => cases h

theorem LoginSystem.Goes.held (h : Goes svc sys others m request phase sys' next)
    {pending : PendingChallenge} (hlookup : sys'.challenges.lookup id = some pending) :
    sys.challenges.lookup id = some pending ∧
      ∀ n, Note.went svc sys sys' i m request phase next = some n → n.takenId ≠ some id := by
  cases h with
  | take =>
    obtain ⟨hne, hlookup⟩ := lookup_of_lookup_erase hlookup
    refine ⟨hlookup, fun n hnote htaken => ?_⟩
    obtain ⟨_, _, hrequest, -⟩ := taken_of_went hnote htaken
    cases hrequest
    exact hne rfl
  | _ =>
    refine ⟨hlookup, fun n hnote htaken => ?_⟩
    obtain ⟨_, _, -, hnext⟩ := taken_of_went hnote htaken
    cases hnext

theorem not_taken_of_ended (hnote : Note.ended i request phase reply = some n) :
    n.takenId = none := by
  cases Note.ended_of_eq hnote <;> rfl

theorem LoginSystem.Ends.granted (h : Ends svc sys m request phase sys' reply)
    (hknows : Knows svc ns sys i (request, phase)) {j : Nat} {apiKeyId : Uuid}
    {response : ApiKeyAuthResponse}
    (hnote : Note.ended i request phase reply = some (.token j apiKeyId response)) :
    Granted svc ns j apiKeyId response := by
  cases Note.ended_of_eq hnote with
  | granted =>
    obtain ⟨found, since, hduring, hgranting⟩ := hknows
    exact .inl ⟨_, found, since, hduring, hgranting⟩
  | @proven id code pending factor =>
    obtain ⟨key, created, since, htook, hproven⟩ := hknows.2 pending rfl
    have hpending : pending = pendingOf (validationResult key) created := by
      obtain ⟨_, _, -, hchallenged, -⟩ := htook
      exact hchallenged.pending_eq
    cases h with
    | proven hissue =>
      have hstamped := stamped_of_issueResponse hissue
      refine .inr ⟨id, code, pending, key, created, since, htook, hproven, ?_, ?_⟩
      · rw [hpending]
        rfl
      · rw [hpending] at hstamped ⊢
        exact hstamped

end Turn

variable {sys : LoginSystem}

section Step

variable {svc : Service} {s : LoginSessions} {e : Event} {ns : List Note}

def isLogin : Event → Bool
  | .arrive _ (.revoke _ _) => false
  | .arrive _ (.rotate _ _) => false
  | _ => true

variable {o : Option Note}

theorem Sound.tokens_append (h : Sound svc ns s)
    (ho : ∀ i apiKeyId response, o = some (.token i apiKeyId response) →
      Granted svc ns i apiKeyId response) (before : List Note) (i : Nat) (apiKeyId : Uuid)
    (response : ApiKeyAuthResponse) (after : List Note)
    (hsplit : ns ++ o.toList = before ++ .token i apiKeyId response :: after) :
    Granted svc before i apiKeyId response := by
  rcases append_toList_eq hsplit with ⟨after', hns, -⟩ | ⟨hnote, rfl, -⟩
  · exact h.tokens before i apiKeyId response after' hns
  · exact ho i apiKeyId response hnote

theorem Sound.held_append (h : Sound svc ns s) {id : String}
    {pending : PendingChallenge} (hlookup : s.db.challenges.lookup id = some pending)
    (ho : ∀ n, o = some n → n.takenId ≠ some id) :
    ∃ key created, Challenged (ns ++ o.toList) id pending key created := by
  obtain ⟨key, created, hchallenged⟩ := h.held id pending hlookup
  exact ⟨key, created, hchallenged.append ho⟩

/-- A token follows the proof of the second factor, unless its key asks for none. -/
theorem sound_step (h : Sound svc ns s) (hlocked : Locked s) (he : isLogin e = true) :
    Sound svc (ns ++ (note svc s e).toList) (step svc s e).1 := by
  generalize note svc s e = o, (step svc s e).1 = s', step_noted svc s e = hnoted
  cases hnoted with
  | same => simpa using h
  | dropped i =>
    rw [Option.toList_none, List.append_nil]
    exact ⟨h.held, fun j x hj => h.session j x (lookup_of_lookup_erase hj).2, h.tokens⟩
  | @arrived i request hi =>
    constructor
    · exact fun id pending hlookup => h.held_append hlookup (by rintro n ⟨⟩ ⟨⟩)
    · intro j x hj
      obtain ⟨rfl, rfl⟩ | ⟨hne, hj⟩ := lookup_insert_cases hj
      · cases request with
        | exchange rawKey =>
          refine ⟨_, [], ⟨ns, rfl, fun n hn => absurd hn List.not_mem_nil⟩, fun key hkey => ?_⟩
          exact ⟨key, hkey, .refl key⟩
        | verify id code =>
          exact ⟨fun _ => ⟨_, [], ns, rfl, fun n hn => absurd hn List.not_mem_nil⟩,
            by rintro pending ⟨⟩⟩
        | revoke keyId tenantId | rotate keyId tenantId => cases he
        | enroll rawKey | confirm rawKey code | recoveryCodes rawKey code => trivial
      · refine (h.session j x hj).append (.refl _) ?_
        rintro n ⟨⟩ ⟨⟩
        exact hne rfl
    · exact h.tokens_append (by rintro i apiKeyId response ⟨⟩)
  | @went i m request phase next sys hi hgoes =>
    have hknows := h.session i _ hi
    constructor
    · intro id pending hlookup
      obtain ⟨hlookup, huntaken⟩ := hgoes.held hlookup
      exact h.held_append hlookup huntaken
    · intro j x hj
      obtain ⟨rfl, rfl⟩ | ⟨-, hj⟩ := lookup_insert_cases hj
      · exact hgoes.knows h.held (hlocked.session _ _ hi) hknows
      · exact (h.session j x hj).append hgoes.keeps fun n hn => Note.arrival_went hn j
    · exact h.tokens_append fun j apiKeyId response hn => nomatch Note.went_of_eq hn
  | @ended i m request phase sys reply hi hends =>
    have hknows := h.session i _ hi
    have hkeeps : Backend.Keeps s.db.backend sys.backend := by
      refine hends.keeps_of_ne ?_
      rintro keyId tenantId rfl
      exact hknows
    constructor
    · intro id pending hlookup
      rcases hends.held hlookup with hlookup | ⟨rawKey, rfl, rfl, rfl⟩
      · refine h.held_append hlookup fun n hn => ?_
        rw [not_taken_of_ended hn]
        rintro ⟨⟩
      · obtain ⟨found, since, hduring, key, created, hnotes, hmfa, hpending⟩ := hknows
        exact ⟨key, created, ns, [], i, rawKey, found, since, rfl,
          fun n hn => absurd hn List.not_mem_nil, hduring, hnotes, hmfa, hpending⟩
    · intro j x hj
      exact (h.session j x (lookup_of_lookup_erase hj).2).append hkeeps
        fun n hn => Note.arrival_ended hn j
    · exact h.tokens_append fun j apiKeyId response hn => hends.granted hknows hn

end Step

theorem sound_idle (svc : Service) (h : sys.challenges = ∅) : Sound svc [] (.idle sys) where
  held := by
    intro id pending hlookup
    have hnone : sys.challenges.lookup id = some pending := hlookup
    rw [h] at hnone
    cases hnone
  session := fun i x hx => by simp [Sessions.idle] at hx
  tokens := fun before i apiKeyId response after h => by simp at h

/-- Every token of a run is granted. -/
theorem second_factor_required {svc : Service} {sys : LoginSystem}
    {events : List Event} (hchallenges : sys.challenges = ∅)
    (hrequests : ∀ e ∈ events, isLogin e = true)
    {before after : List Note} {i : Nat} {apiKeyId : Uuid} {response : ApiKeyAuthResponse}
    (htoken : notes svc (.idle sys) events = before ++ .token i apiKeyId response :: after) :
    Granted svc before i apiKeyId response := by
  have hsound := (along_of_forall (step svc) hrequests).gathered
    (fun ns s => Sound svc ns s ∧ Locked s)
    (fun ns s e hs he => ⟨sound_step hs.1 hs.2 he, locked_step hs.2 e⟩)
    ⟨sound_idle svc hchallenges, locked_idle sys⟩
  exact hsound.1.tokens before i apiKeyId response after htoken

def phoneNotes : List Note :=
  notes phoneService (.idle phoneSystem) (phoneLogin (Uuid.repeated 'a' (.refl true)) "5")

theorem second_factor_required_phone :
    phoneNotes = phoneNotes.dropLast ++ [.token 1 phoneKey.id phoneResponse] ∧
      Granted phoneService phoneNotes.dropLast 1 phoneKey.id phoneResponse := by
  have htoken : phoneNotes = phoneNotes.dropLast ++ [.token 1 phoneKey.id phoneResponse] := by
    decide +kernel
  exact ⟨htoken, second_factor_required rfl (by decide) htoken⟩

end WslVault.IdentityService.Login
