import WslVault.IdentityService.Verify.Login

/-!
# Tokens for a revoked key

A login reads its key when it begins. One that completes with a code does not read it again:
it goes by the challenge, which outlives the revocation of its key.
-/

namespace WslVault.IdentityService.Login

open Core Base Storage LoginSystem ApiKeyManager

def Late (since : List Note) (i : Nat) : Prop := ∃ n ∈ since, n.arrival = some i

def Phase.result : Phase → Option ApiKeyValidationResult
  | touching result => some result
  | validated result => some result
  | granting result => some result
  | _ => none

def Other (keyId : Uuid) (since : List Note) (i : Nat) : Request × Phase → Prop
  | (.exchange _, phase) => ∀ result, phase.result = some result → result.keyId ≠ keyId
  | (.verify id code, phase) => (∃ key, .arrived i (.verify id code) key ∈ since) ∧
    ∀ pending, phase.pending = some pending → pending.apiKeyId ≠ keyId
  | _ => True

/-- The requests that arrived since present no challenge that was issued for the key, also
none that was held in the beginning. -/
def Unanswered (sys : LoginSystem) (notes : List Note) (keyId : Uuid) (since : List Note) : Prop :=
  ∀ i id code key, .arrived i (.verify id code) key ∈ since →
    (∀ pending, sys.challenges.lookup id = some pending → pending.apiKeyId ≠ keyId) ∧
      ∀ j pending, .issued j id pending ∈ notes → pending.apiKeyId ≠ keyId

variable {x : Request × Phase}

section Notes

variable {sys : LoginSystem} {ns since : List Note} {keyId : Uuid} {i : Nat} {o : Option Note}

theorem Late.append (h : Late (since ++ o.toList) i) (ho : ∀ n, o = some n → n.arrival ≠ some i) :
    Late since i := by
  obtain ⟨n, hn, hi⟩ := h
  rcases List.mem_append.mp hn with hn | hn
  · exact ⟨n, hn, hi⟩
  · exact absurd hi (ho n (Option.mem_toList.mp hn))

theorem Unanswered.of_append (h : Unanswered sys (ns ++ o.toList) keyId (since ++ o.toList)) :
    Unanswered sys ns keyId since := by
  intro i id code key harrived
  obtain ⟨hheld, hissued⟩ := h i id code key (List.mem_append_left _ harrived)
  exact ⟨hheld, fun j pending hmem => hissued j pending (List.mem_append_left _ hmem)⟩

theorem Other.append (h : Other keyId since i x) (o : Option Note) :
    Other keyId (since ++ o.toList) i x := by
  obtain ⟨request, phase⟩ := x
  cases request with
  | exchange rawKey => exact h
  | verify id code =>
    obtain ⟨⟨key, harrived⟩, hpending⟩ := h
    exact ⟨⟨key, List.mem_append_left _ harrived⟩, hpending⟩
  | _ => trivial

end Notes

section Turn

variable {svc : Service} {sys₀ sys sys' : LoginSystem} {others : List (Request × Phase)}
  {m : Moment} {request : Request} {phase next : Phase} {reply : Response} {i : Nat}
  {ns since : List Note} {keyId : Uuid}

/-- The challenges that are held were there in the beginning or were issued. -/
def FromIssue (sys₀ : LoginSystem) (ns : List Note) (sys : LoginSystem) : Prop :=
  ∀ id pending, sys.challenges.lookup id = some pending →
    sys₀.challenges.lookup id = some pending ∨ ∃ j, .issued j id pending ∈ ns

theorem FromIssue.append {o : Option Note} (h : FromIssue sys₀ ns sys)
    (hsub : ∀ id pending, sys'.challenges.lookup id = some pending →
      sys.challenges.lookup id = some pending ∨ ∃ j, o = some (.issued j id pending)) :
    FromIssue sys₀ (ns ++ o.toList) sys' := by
  intro id pending hlookup
  rcases hsub id pending hlookup with hold | ⟨j, rfl⟩
  · exact (h id pending hold).imp_right fun ⟨j, hj⟩ => ⟨j, List.mem_append_left _ hj⟩
  · exact .inr ⟨j, List.mem_append_right _ (List.mem_singleton_self _)⟩

theorem LoginSystem.Goes.challenges (h : Goes svc sys others m request phase sys' next)
    (id : String) (pending : PendingChallenge)
    (hlookup : sys'.challenges.lookup id = some pending) :
    sys.challenges.lookup id = some pending := by
  cases h with
  | take => exact (lookup_of_lookup_erase hlookup).2
  | _ => exact hlookup

theorem LoginSystem.Ends.challenges (h : Ends svc sys m request phase sys' reply) (id : String)
    (pending : PendingChallenge) (hlookup : sys'.challenges.lookup id = some pending) :
    sys.challenges.lookup id = some pending ∨
      ∃ j, Note.ended i request phase reply = some (.issued j id pending) := by
  rcases h.held hlookup with hold | ⟨rawKey, rfl, rfl, rfl⟩
  · exact .inl hold
  · exact .inr ⟨i, rfl⟩

theorem keyId_ne_of_validateKey {rawKey : String} {backend : Backend}
    {result : ApiKeyValidationResult} (hrevoked : sys.backend.Revoked keyId)
    (h : validateKey svc.hashKey m.now sys.backend rawKey = .ok (backend, result)) :
    result.keyId ≠ keyId := by
  obtain ⟨-, record, hrecord, hlive, -, -, rfl⟩ := validateKey_eq_ok.mp h
  intro hid
  have hdead := hrevoked.records _ record hrecord hid
  rw [hlive] at hdead
  cases hdead

theorem LoginSystem.Goes.other (h : Goes svc sys others m request phase sys' next)
    (hrevoked : sys.backend.Revoked keyId) (hfrom : FromIssue sys₀ ns sys)
    (hunanswered : Unanswered sys₀ ns keyId since)
    (hother : Other keyId since i (request, phase)) : Other keyId since i (request, next) := by
  cases request with
  | exchange rawKey =>
    intro result hresult
    cases h with
    | read _ hvalid =>
      cases hresult
      exact keyId_ne_of_validateKey hrevoked hvalid
    | readMemory _ _ hvalid =>
      cases hresult
      exact keyId_ne_of_validateKey hrevoked hvalid
    | touch | untouched | grant => exact hother result hresult
    | challenge => cases hresult
  | verify id code =>
    obtain ⟨⟨key, harrived⟩, hpending⟩ := hother
    refine ⟨⟨key, harrived⟩, fun pending hnext => ?_⟩
    cases h with
    | take hlookup _ =>
      cases hnext
      obtain ⟨hheld, hissued⟩ := hunanswered i id code key harrived
      rcases hfrom id _ hlookup with hfirst | ⟨j, hj⟩
      · exact hheld _ hfirst
      · exact hissued j _ hj
    | found | missed | consume | accept => exact hpending pending hnext
    | read hkey => cases hkey
    | readMemory hkey => cases hkey
    | touch => cases hnext
    | untouched => cases hnext
  | _ => trivial

theorem not_other_of_token {j : Nat} {response : ApiKeyAuthResponse}
    (hnote : Note.ended i request phase reply = some (.token j keyId response)) :
    j = i ∧ ¬ Other keyId since i (request, phase) := by
  cases Note.ended_of_eq hnote with
  | granted => exact ⟨rfl, fun hother => hother _ rfl rfl⟩
  | proven => exact ⟨rfl, fun hother => hother.2 _ rfl rfl⟩

end Turn

/-! ## Steps -/

structure Barred (sys₀ : LoginSystem) (ns : List Note) (s : LoginSessions)
    (keyId : Uuid) (since : List Note) : Prop where
  revoked : s.db.backend.Revoked keyId
  session : Unanswered sys₀ ns keyId since →
    ∀ i x, s.current.lookup i = some x → Late since i → Other keyId since i x
  token : Unanswered sys₀ ns keyId since →
    ∀ a i response b, since = a ++ .token i keyId response :: b → ¬ Late a i

structure Bars (sys₀ : LoginSystem) (ns : List Note) (s : LoginSessions) :
    Prop where
  wellFormed : s.db.backend.WellFormed
  challenges : FromIssue sys₀ ns s.db
  replacing : ∀ i keyId tenantId old,
    s.current.lookup i = some (.rotate keyId tenantId, .replacing old) → s.db.backend.Revoked keyId
  barred : ∀ before keyId since, ns = before ++ .revoked keyId :: since →
    Barred sys₀ ns s keyId since

section Step

variable {svc : Service} {sys₀ : LoginSystem} {s : LoginSessions} {e : Event} {ns : List Note}

def freshDraw (s : LoginSessions) : Event → Bool
  | .resume _ m => s.db.backend.freshId m.draw.id
  | _ => true

variable {o : Option Note} {s' : LoginSessions} {keyId : Uuid} {since : List Note}

theorem Barred.append (h : Barred sys₀ ns s keyId since) (hrevoked : s'.db.backend.Revoked keyId)
    (hsession : Unanswered sys₀ (ns ++ o.toList) keyId (since ++ o.toList) →
      ∀ i x, s'.current.lookup i = some x → Late (since ++ o.toList) i →
        Other keyId (since ++ o.toList) i x)
    (htoken : ∀ i response, o = some (.token i keyId response) →
      Unanswered sys₀ ns keyId since → ¬ Late since i) :
    Barred sys₀ (ns ++ o.toList) s' keyId (since ++ o.toList) where
  revoked := hrevoked
  session := hsession
  token := by
    intro hunanswered a i response b hsplit
    rcases append_toList_eq hsplit with ⟨b', hsince, -⟩ | ⟨ho, rfl, -⟩
    · exact h.token hunanswered.of_append a i response b' hsince
    · exact htoken i response ho hunanswered.of_append

theorem Bars.barred_append (h : Bars sys₀ ns s)
    (hold : ∀ keyId since, Barred sys₀ ns s keyId since →
      Barred sys₀ (ns ++ o.toList) s' keyId (since ++ o.toList))
    (hnew : ∀ keyId, o = some (.revoked keyId) → s'.db.backend.Revoked keyId)
    (before : List Note) (keyId : Uuid) (since : List Note)
    (hsplit : ns ++ o.toList = before ++ .revoked keyId :: since) :
    Barred sys₀ (ns ++ o.toList) s' keyId since := by
  rcases append_toList_eq hsplit with ⟨since', hns, rfl⟩ | ⟨ho, -, rfl⟩
  · exact hold keyId since' (h.barred before keyId since' hns)
  · refine ⟨hnew keyId ho, fun _ i x _ hlate => ?_, fun _ a i response b hnil => ?_⟩
    · obtain ⟨n, hn, -⟩ := hlate
      exact absurd hn List.not_mem_nil
    · simp at hnil

/-- A session that comes late gets no token for the revoked key. -/
theorem bars_step (h : Bars sys₀ ns s) (hfresh : freshDraw s e = true) :
    Bars sys₀ (ns ++ (note svc s e).toList) (step svc s e).1 := by
  generalize note svc s e = o, (step svc s e).1 = s', step_noted svc s e = hnoted
  cases hnoted with
  | same => simpa using h
  | dropped i =>
    rw [Option.toList_none, List.append_nil]
    refine ⟨h.wellFormed, h.challenges, fun j keyId tenantId old hj =>
      h.replacing j keyId tenantId old (lookup_of_lookup_erase hj).2, ?_⟩
    intro before keyId since hns
    have hbarred := h.barred before keyId since hns
    exact ⟨hbarred.revoked, fun hunanswered j x hj =>
      hbarred.session hunanswered j x (lookup_of_lookup_erase hj).2, hbarred.token⟩
  | @arrived i request hi =>
    refine ⟨h.wellFormed, h.challenges.append fun _ _ hlookup => .inl hlookup, ?_, ?_⟩
    · intro j keyId tenantId old hj
      obtain ⟨-, ⟨⟩⟩ | ⟨-, hj⟩ := lookup_insert_cases hj
      exact h.replacing j keyId tenantId old hj
    · refine h.barred_append (fun keyId since hbarred => ?_) (by rintro keyId ⟨⟩)
      refine hbarred.append hbarred.revoked (fun hunanswered j x hj hlate => ?_)
        (by rintro j response ⟨⟩)
      obtain ⟨rfl, rfl⟩ | ⟨hne, hj⟩ := lookup_insert_cases hj
      · cases request with
        | exchange rawKey => rintro result ⟨⟩
        | verify id code =>
          exact ⟨⟨_, List.mem_append_right _ (List.mem_singleton_self _)⟩, by rintro pending ⟨⟩⟩
        | _ => trivial
      · refine (hbarred.session hunanswered.of_append j x hj (hlate.append ?_)).append _
        rintro n ⟨⟩ ⟨⟩
        exact hne rfl
  | @went i m request phase next sys hi hgoes =>
    have hkeeps := hgoes.keeps
    refine ⟨hkeeps.wellFormed h.wellFormed,
      h.challenges.append fun id pending hlookup => .inl (hgoes.challenges id pending hlookup),
      ?_, ?_⟩
    · intro j keyId tenantId old hj
      obtain ⟨-, ⟨⟩⟩ | ⟨-, hj⟩ := lookup_insert_cases hj
      · cases hgoes with
        | replacing hrevoke => exact revoked_of_revokeKey h.wellFormed hrevoke
      · exact (h.replacing j keyId tenantId old hj).keeps hkeeps
    · refine h.barred_append (fun keyId since hbarred => ?_)
        fun keyId hn => nomatch Note.went_of_eq hn
      refine hbarred.append (hbarred.revoked.keeps hkeeps) (fun hunanswered j x hj hlate => ?_)
        fun j response hn => nomatch Note.went_of_eq hn
      have harrival := fun n (hn : Note.went svc s.db sys i m request phase next = some n) =>
        Note.arrival_went hn j
      obtain ⟨rfl, rfl⟩ | ⟨-, hj⟩ := lookup_insert_cases hj
      · have hbefore := hbarred.session hunanswered.of_append j _ hi (hlate.append harrival)
        exact (hgoes.other hbarred.revoked h.challenges hunanswered.of_append hbefore).append _
      · exact (hbarred.session hunanswered.of_append j x hj (hlate.append harrival)).append _
  | @ended i m request phase sys reply hi hends =>
    have hstays : ∀ keyId, s.db.backend.Revoked keyId → sys.backend.Revoked keyId :=
      fun keyId hrevoked => hends.revoked_of_revoked hfresh hrevoked
    refine ⟨hends.wellFormed hfresh h.wellFormed,
      h.challenges.append fun id pending hlookup => hends.challenges id pending hlookup, ?_, ?_⟩
    · intro j keyId tenantId old hj
      exact hstays keyId (h.replacing j keyId tenantId old (lookup_of_lookup_erase hj).2)
    · refine h.barred_append (fun keyId since hbarred => ?_) fun keyId hn => ?_
      · refine hbarred.append (hstays keyId hbarred.revoked)
          (fun hunanswered j x hj hlate => ?_) fun j response hn hunanswered hlate => ?_
        · refine (hbarred.session hunanswered.of_append j x (lookup_of_lookup_erase hj).2
            (hlate.append fun n hn => Note.arrival_ended hn j)).append _
        · obtain ⟨rfl, hnot⟩ := not_other_of_token hn
          exact hnot (hbarred.session hunanswered j _ hi hlate)
      · cases Note.ended_of_eq hn with
        | revoked =>
          cases hends with
          | revoked hrevoke _ => exact revoked_of_revokeKey h.wellFormed hrevoke
        | @rotated _ tenantId =>
          cases hends with
          | rotated hcreate _ =>
            obtain ⟨r, hadds⟩ := createKey_adds hcreate hfresh
            exact (h.replacing i keyId tenantId _ hi).adds hadds

end Step

theorem bars_idle {sys : LoginSystem} (hwf : sys.backend.WellFormed) : Bars sys [] (.idle sys) where
  wellFormed := hwf
  challenges := fun _ _ hlookup => .inl hlookup
  replacing := fun i keyId tenantId old hi => by simp [Sessions.idle] at hi
  barred := fun before keyId since hnil => by simp at hnil

/-- No request that arrives after the revocation of a key gets a token for it, unless one
presents a challenge that was issued for the key. -/
theorem revoked_key_gets_no_token {svc : Service} {sys : LoginSystem}
    {events : List Event} (hwf : sys.backend.WellFormed)
    (hfresh : Along (step svc) (fun s e => freshDraw s e = true) (.idle sys) events)
    {keyId : Uuid} {before since : List Note}
    (hrevoked : notes svc (.idle sys) events = before ++ .revoked keyId :: since)
    (hunanswered : Unanswered sys (notes svc (.idle sys) events) keyId since)
    {a b : List Note} {i : Nat} {response : ApiKeyAuthResponse}
    (htoken : since = a ++ .token i keyId response :: b) : ¬ Late a i := by
  have hbars := hfresh.gathered (Bars sys) (fun ns s e hs he => bars_step hs he) (bars_idle hwf)
  exact (hbars.barred before keyId since hrevoked).token hunanswered a i response b htoken

/-- A login that has read its key, which does not require a second factor, before the key is
revoked, and one that arrives after it. -/
def racingLogins : List Event :=
  [.arrive 1 (.exchange "wslv_key"), .resume 1 (phoneMoment ciTenant),
    .resume 1 (phoneMoment ciTenant), .resume 1 (phoneMoment ciTenant),
    .arrive 2 (.revoke teamKey.id ciTenant.toString), .resume 2 (phoneMoment ciTenant),
    .arrive 3 (.exchange "wslv_key"), .resume 3 (phoneMoment ciTenant),
    .resume 1 (phoneMoment ciTenant)]

def racingNotes : List Note :=
  notes phoneService (.idle { phoneSystem with backend := teamKeys }) racingLogins

def Note.noAnswer : Note → Bool
  | .arrived _ (.verify _ _) _ => false
  | _ => true

theorem revoked_key_gets_no_token_racing :
    racingNotes.drop 3 = .revoked teamKey.id :: racingNotes.drop 4 ∧
      racingNotes.drop 4 = (racingNotes.drop 4).take 1 ++ [.token 1 teamKey.id phoneResponse] ∧
      ¬ Late ((racingNotes.drop 4).take 1) 1 := by
  have hrevoked : racingNotes.drop 3 = .revoked teamKey.id :: racingNotes.drop 4 := by
    decide +kernel
  have htoken : racingNotes.drop 4 =
      (racingNotes.drop 4).take 1 ++ [.token 1 teamKey.id phoneResponse] := by decide +kernel
  have hsplit : racingNotes = racingNotes.take 3 ++ .revoked teamKey.id :: racingNotes.drop 4 := by
    rw [← hrevoked, List.take_append_drop]
  have hrequests : (racingNotes.drop 4).all Note.noAnswer = true := by decide +kernel
  have hwf : teamKeys.WellFormed := List.nodup_singleton _
  refine ⟨hrevoked, htoken, ?_⟩
  refine @revoked_key_gets_no_token phoneService { phoneSystem with backend := teamKeys } _ hwf
    (by decide +kernel) _ _ _ hsplit (fun i id code key hmem => ?_) _ _ _ _ htoken
  cases List.all_eq_true.mp hrequests _ hmem

/-- A challenge is issued, its key is revoked, and the challenge is answered by a request that
arrives then. -/
def lateLogin : List Event :=
  phoneTurns ciTenant (.exchange "wslv_key") ++
    phoneTurns ciTenant (.revoke phoneKey.id ciTenant.toString) ++
    phoneTurns ciTenant (.verify ciTenant.toString "5")

theorem token_after_revocation : (notes phoneService (.idle phoneSystem) lateLogin).drop 5 =
      [.revoked phoneKey.id, .arrived 1 (.verify ciTenant.toString "5") none,
        .took 1 ciTenant.toString
          (pendingOf (validationResult (.ofRow phoneKey)) (seconds 150)) (seconds 150),
        .enrolment 1 (some (phoneTotp 3)), .proved 1 "5" "" (.totp 5) (seconds 150),
        .accepted 1 phoneKey.id (.totp 5) ⟨some (phoneTotp 3), []⟩ ⟨some (phoneTotp 5), []⟩,
        .token 1 phoneKey.id phoneResponse] := by
  decide +kernel

end WslVault.IdentityService.Login
