import WslVault.IdentityService.Verify.FactorLocks

/-!
# Codes of an authenticator are used once

A login and a request for new recovery codes record the step of the code they accept, in a
statement that asks for a higher step than the recorded one; a confirmation records the step
of its code whatever is recorded.
-/

namespace WslVault.IdentityService.Login

open Core Base Storage LoginSystem

def lastUsed (mfa : MfaTables) (apiKeyId : Uuid) : Option Int :=
  (MfaStore.find mfa apiKeyId).map TotpEnrolment.lastUsedStep

def Records (mfa mfa' : MfaTables) (apiKeyId : Uuid) (f : Int → Int) : Prop :=
  ∀ k, lastUsed mfa' k = (lastUsed mfa k).map fun l => if k = apiKeyId then f l else l

variable {mfa : MfaTables} {apiKeyId : Uuid}

theorem records_update {p : TotpEnrolment → Bool}
    {set : TotpEnrolment → TotpEnrolment} {hset : ∀ e, (set e).apiKeyId = e.apiKeyId}
    {f : Int → Int}
    (hrow : ∀ e : TotpEnrolment, (if p e then set e else e).lastUsedStep =
      if e.apiKeyId = apiKeyId then f e.lastUsedStep else e.lastUsedStep) :
    Records mfa { mfa with totp := mfa.totp.update p set hset } apiKeyId f := by
  intro k
  simp only [lastUsed, MfaStore.find, Table.get?_update, Option.map_map]
  cases hget : mfa.totp.get? k with
  | none => rfl
  | some e =>
    have hid : e.apiKeyId = k := (Table.get?_eq_some.mp hget).2
    simp only [Option.map_some, Function.comp_apply, hrow, hid]

theorem records_tryConsumeStep (mfa : MfaTables) (apiKeyId : Uuid) (step : Int) :
    Records mfa (MfaStore.tryConsumeStep mfa apiKeyId step) apiKeyId (max · step) := by
  refine records_update fun e => ?_
  by_cases hid : e.apiKeyId = apiKeyId
  · by_cases hlt : e.lastUsedStep < step
    · simp [MfaStore.isFresh, hid, hlt, max_eq_right hlt.le]
    · simp [MfaStore.isFresh, hid, hlt, max_eq_left (not_lt.mp hlt)]
  · simp [MfaStore.isFresh, hid]

theorem records_confirm (mfa : MfaTables) (now : Timestamp) (apiKeyId : Uuid) (step : Int) :
    Records mfa (MfaStore.confirm mfa now apiKeyId step) apiKeyId fun _ => step := by
  refine records_update fun e => ?_
  by_cases hid : e.apiKeyId = apiKeyId <;> simp [hid]

variable {result : ApiKeyValidationResult}

theorem lastUsed_recode {svc : Service} {mfa' : MfaTables}
    {codes : List String} (h : recode svc mfa result codes = some mfa') :
    lastUsed mfa' = lastUsed mfa := by
  obtain ⟨tenantId, -, h⟩ := Option.bind_eq_some_iff.mp h
  obtain ⟨codes', -, rfl⟩ := Option.map_eq_some_iff.mp h
  rfl

theorem Holding.lastUsed {sys : LoginSystem} {x : Request × Phase} {step : Int}
    (h : Holding sys x) (hspends : x.2.spends = some (apiKeyId, .totp step)) :
    ∃ l, Login.lastUsed sys.mfa apiKeyId = some l ∧ l < step := by
  obtain ⟨e, he, hlt⟩ := stepFresh_iff.mp (h _ _ hspends)
  exact ⟨_, Option.map_eq_some_iff.mpr ⟨e, he, rfl⟩, hlt⟩

namespace Records

variable {mfa mfa' : MfaTables} {apiKeyId k : Uuid} {f : Int → Int}

theorem of_ne (h : Records mfa mfa' apiKeyId f) (hk : k ≠ apiKeyId) :
    lastUsed mfa' k = lastUsed mfa k := by
  rw [h k]
  simp [hk]

theorem self (h : Records mfa mfa' apiKeyId f) :
    lastUsed mfa' apiKeyId = (lastUsed mfa apiKeyId).map f := by
  rw [h apiKeyId]
  simp

theorem le (h : Records mfa mfa' apiKeyId f)
    (hf : ∀ l, lastUsed mfa apiKeyId = some l → l ≤ f l) {l : Int} (hl : lastUsed mfa k = some l) :
    ∃ l', lastUsed mfa' k = some l' ∧ l ≤ l' := by
  by_cases hk : k = apiKeyId
  · subst hk
    exact ⟨f l, by rw [h.self, hl, Option.map_some], hf l hl⟩
  · exact ⟨l, by rw [h.of_ne hk, hl], le_rfl⟩

end Records

/-! ## Transactions that record a step -/

/-- The step of its code that a confirmation records. -/
def Phase.confirms : Phase → Option (Uuid × Int)
  | confirmed result step => some (result.keyId, step)
  | _ => none

variable {phase : Phase} {k : Uuid}

theorem Phase.lock_of_confirms {step : Int} (h : phase.confirms = some (k, step)) :
    .totp k ∈ phase.locks := by
  cases phase with
  | confirmed result n =>
    cases h
    exact List.mem_cons_self
  | _ => cases h

/-- What a confirmation knows of the recorded step of its key. -/
structure Recording (sys : LoginSystem) (x : Request × Phase) : Prop where
  noEnroll : ∀ rawKey, x.1 ≠ .enroll rawKey
  confirms : ∀ k step, x.2.confirms = some (k, step) → ∀ l, lastUsed sys.mfa k = some l → l ≤ step

variable {x y : Request × Phase}

section Turn

variable {svc : Service} {sys sys' : LoginSystem} {others : List (Request × Phase)} {m : Moment}
  {request : Request} {phase next : Phase} {reply : Response}

inductive Counts (sys : LoginSystem) (phase : Phase) (sys' : LoginSystem) : Prop where
  | same (h : lastUsed sys'.mfa = lastUsed sys.mfa)
  | spend {k step} (hphase : phase.spends = some (k, .totp step))
      (h : Records sys.mfa sys'.mfa k (max · step))
  | confirm {k step} (hphase : phase.confirms = some (k, step))
      (h : Records sys.mfa sys'.mfa k fun _ => step)

theorem LoginSystem.Goes.counts (h : Goes svc sys others m request phase sys' next) :
    Counts sys phase sys' := by
  cases h with
  | @accept id code pending factor =>
    cases factor with
    | totp step => exact .spend rfl (records_tryConsumeStep _ _ _)
    | recovery codeHashes => exact .same rfl
  | _ => exact .same rfl

theorem LoginSystem.Ends.counts (h : Ends svc sys m request phase sys' reply)
    (hrequest : ∀ rawKey, request ≠ .enroll rawKey) : Counts sys phase sys' := by
  cases h with
  | @spent id code pending factor =>
    cases factor with
    | totp step => exact .spend rfl (records_tryConsumeStep _ _ _)
    | recovery codeHashes => exact .same rfl
  | @reissued rawKey code result factor codes mfa _ hcodes =>
    have hlast := lastUsed_recode hcodes
    cases factor with
    | totp step =>
      refine .spend rfl fun k => ?_
      rw [hlast]
      exact records_tryConsumeStep _ _ _ k
    | recovery codeHashes => exact .same hlast
  | confirmed => exact .confirm rfl (records_confirm _ _ _ _)
  | enrolled => exact absurd rfl (hrequest _)
  | _ => exact .same rfl

theorem Recording.kept (h : Recording sys y) (hkept : ∀ b ∈ y.2.locks, b.Kept sys.mfa sys'.mfa) :
    Recording sys' y := by
  refine ⟨h.noEnroll, fun k step hconfirms => ?_⟩
  rw [lastUsed, (hkept _ (Phase.lock_of_confirms hconfirms) :), ← lastUsed]
  exact h.confirms k step hconfirms

theorem Counts.le (hcounts : Counts sys phase sys') (h : Recording sys (request, phase))
    {l : Int} (hl : lastUsed sys.mfa k = some l) :
    ∃ l', lastUsed sys'.mfa k = some l' ∧ l ≤ l' := by
  cases hcounts with
  | same hlast => exact ⟨l, by rw [hlast, hl], le_rfl⟩
  | spend hphase hrecords => exact hrecords.le (fun l _ => le_max_left l _) hl
  | confirm hphase hrecords => exact hrecords.le (h.confirms _ _ hphase) hl

/-- A confirmation whose code is of no lower step than the recorded one. -/
def forwardTurn (svc : Service) (sys : LoginSystem) (m : Moment) : Request × Phase → Bool
  | (.confirm _ code, .confirming result secret) =>
    (Mfa.verifyCode svc.hotp secret code (Jwt.unix m.now)).all fun step =>
      (lastUsed sys.mfa result.keyId).all fun l => decide (l ≤ step)
  | _ => true

theorem LoginSystem.Goes.recording (h : Goes svc sys others m request phase sys' next)
    (hknows : Recording sys (request, phase))
    (hforward : forwardTurn svc sys m (request, phase) = true) :
    Recording sys' (request, next) := by
  refine ⟨hknows.noEnroll, fun k step hconfirms l hl => ?_⟩
  cases h with
  | confirmed hcode _ =>
    cases hconfirms
    simpa only [forwardTurn, hcode, hl, Option.all_some, decide_eq_true_eq] using hforward
  | _ => cases hconfirms

end Turn

/-! ## What was accepted -/

def Note.acceptedStep (apiKeyId : Uuid) : Note → Option Int
  | accepted _ k (.totp step) _ _ => if k = apiKeyId then some step else none
  | reissued _ k (.totp step) => if k = apiKeyId then some step else none
  | _ => none

/-- The steps of a key that logins and requests for new recovery codes were let pass with. -/
def acceptedSteps (apiKeyId : Uuid) (notes : List Note) : List Int :=
  notes.filterMap (Note.acceptedStep apiKeyId)

theorem acceptedSteps_append (apiKeyId : Uuid) (notes : List Note) (n : Option Note) :
    acceptedSteps apiKeyId (notes ++ n.toList) =
      acceptedSteps apiKeyId notes ++ (n.bind (Note.acceptedStep apiKeyId)).toList := by
  cases n with
  | none => simp
  | some n => cases h : n.acceptedStep apiKeyId <;> simp [acceptedSteps, h]

section Turn

variable {svc : Service} {sys sys' : LoginSystem} {others : List (Request × Phase)} {m : Moment}
  {request : Request} {phase next : Phase} {reply : Response} {i : Nat} {k : Uuid} {step : Int}
  {n : Note}

theorem LoginSystem.Goes.accepted (h : Goes svc sys others m request phase sys' next)
    (hnote : Note.went svc sys sys' i m request phase next = some n)
    (hstep : n.acceptedStep k = some step) :
    phase.spends = some (k, .totp step) ∧ Records sys.mfa sys'.mfa k (max · step) := by
  cases Note.went_of_eq hnote with
  | @accepted id code phase pending factor =>
    cases factor with
    | totp l =>
      simp only [Note.acceptedStep, Option.ite_none_right_eq_some, Option.some.injEq] at hstep
      obtain ⟨rfl, rfl⟩ := hstep
      cases h with
      | accept => exact ⟨rfl, records_tryConsumeStep _ _ _⟩
    | recovery codeHashes => cases hstep
  | _ => cases hstep

theorem LoginSystem.Ends.accepted (h : Ends svc sys m request phase sys' reply)
    (hnote : Note.ended i request phase reply = some n) (hstep : n.acceptedStep k = some step) :
    phase.spends = some (k, .totp step) ∧ Records sys.mfa sys'.mfa k (max · step) := by
  cases Note.ended_of_eq hnote with
  | @reissued rawKey code result factor =>
    cases factor with
    | totp l =>
      simp only [Note.acceptedStep, Option.ite_none_right_eq_some, Option.some.injEq] at hstep
      obtain ⟨rfl, rfl⟩ := hstep
      cases h with
      | reissued hcodes _ =>
        refine ⟨rfl, fun k => ?_⟩
        rw [lastUsed_recode hcodes]
        exact records_tryConsumeStep _ _ _ k
    | recovery codeHashes => cases hstep
  | _ => cases hstep

end Turn

/-- Every step that was accepted is recorded, or a higher one is, and none was twice. -/
def Settled (notes : List Note) (sys : LoginSystem) : Prop :=
  ∀ k, (acceptedSteps k notes).Nodup ∧
    ∀ step ∈ acceptedSteps k notes, ∃ l, lastUsed sys.mfa k = some l ∧ step ≤ l

section Step

variable {svc : Service} {s : LoginSessions} {e : Event} {ns : List Note}

/-- What holds along a run, with what was noted of it so far. -/
def Counting (ns : List Note) (s : LoginSessions) : Prop :=
  Locked s ∧ Sessions.Valid (Settled ns) Recording (fun _ _ => True) s

theorem settled_of_none {sys : LoginSystem} (h : Settled ns sys) (n : Option Note)
    (hn : ∀ k, n.bind (Note.acceptedStep k) = none) : Settled (ns ++ n.toList) sys := by
  intro k
  rw [acceptedSteps_append, hn k, Option.toList_none, List.append_nil]
  exact h k

theorem settled_concat {sys sys' : LoginSystem} {request : Request}
    (h : Settled ns sys) (hholds : Holding sys (request, phase))
    (hknows : Recording sys (request, phase)) (hcounts : Counts sys phase sys') (n : Option Note)
    (hn : ∀ k step x, n = some x → x.acceptedStep k = some step →
      phase.spends = some (k, .totp step) ∧ Records sys.mfa sys'.mfa k (max · step)) :
    Settled (ns ++ n.toList) sys' := by
  -- the steps accepted so far stay covered
  have hkeep : Settled ns sys' := by
    intro k
    refine ⟨(h k).1, fun step hstep => ?_⟩
    obtain ⟨l, hl, hle⟩ := (h k).2 step hstep
    obtain ⟨l', hl', hle'⟩ := hcounts.le hknows hl
    exact ⟨l', hl', hle.trans hle'⟩
  intro k
  rw [acceptedSteps_append]
  cases hstep : n.bind (Note.acceptedStep k) with
  | none =>
    rw [Option.toList_none, List.append_nil]
    exact hkeep k
  | some step =>
    obtain ⟨x, hx, haccepted⟩ := Option.bind_eq_some_iff.mp hstep
    obtain ⟨hspends, hrecords⟩ := hn k step x hx haccepted
    obtain ⟨l, hl, hlt⟩ := hholds.lastUsed hspends
    -- a step that was accepted before is at most the recorded one, and this one is higher
    have hnew : step ∉ acceptedSteps k ns := by
      intro hmem
      obtain ⟨l', hl', hle⟩ := (h k).2 step hmem
      cases hl.symm.trans hl'
      exact absurd hlt (not_lt.mpr hle)
    refine ⟨List.nodup_append_comm.mp (List.nodup_cons.mpr ⟨hnew, (h k).1⟩), fun x hx => ?_⟩
    rcases List.mem_append.mp hx with hx | hx
    · exact (hkeep k).2 x hx
    · rw [List.mem_singleton.mp hx]
      exact ⟨max l step, by rw [hrecords.self, hl, Option.map_some], le_max_right l step⟩

def noEnroll : Event → Bool
  | .arrive _ (.enroll _) => false
  | _ => true

/-- No confirmation records a lower step than is recorded. -/
def forward (svc : Service) (s : LoginSessions) : Event → Bool
  | .resume i m => (s.current.lookup i).all (forwardTurn svc s.db m)
  | _ => true

/-- The last step used of a factor only grows, so no code is accepted twice. -/
theorem counting_step (h : Counting ns s) (he : noEnroll e = true)
    (hforward : forward svc s e = true) : Counting (ns ++ (note svc s e).toList) (step svc s e).1 ∧
      ∀ k l, lastUsed s.db.mfa k = some l →
        ∃ l', lastUsed (step svc s e).1.db.mfa k = some l' ∧ l ≤ l' := by
  obtain ⟨hlocked, h⟩ := h
  have hnext : Locked (step svc s e).1 := locked_step hlocked e
  unfold Counting
  generalize note svc s e = o, (step svc s e).1 = s', step_noted svc s e = hnoted at hnext ⊢
  rw [and_iff_right hnext]
  cases hnoted with
  | same => exact ⟨by simpa using h, fun k l hl => ⟨l, hl, le_rfl⟩⟩
  | dropped i =>
    rw [Option.toList_none, List.append_nil]
    exact ⟨h.finish i h.db fun y hy => h.others hy, fun k l hl => ⟨l, hl, le_rfl⟩⟩
  | @arrived i request hi =>
    refine ⟨?_, fun k l hl => ⟨l, hl, le_rfl⟩⟩
    have hsettled : Settled (ns ++ [.arrived i request (svc.keyOf s.db request)]) s.db :=
      settled_of_none h.db (some _) fun k => rfl
    have hrecording : Recording s.db (request, .start) := by
      refine ⟨?_, by rintro k step ⟨⟩⟩
      rintro rawKey rfl
      cases he
    exact Sessions.Valid.set (h.mono (fun _ => hsettled) fun _ hx => hx) i hrecording
      fun _ _ => ⟨trivial, trivial⟩
  | @went i m request phase next sys hi hgoes =>
    have hknows := h.session i _ hi
    have hcounts := hgoes.counts
    have hforward : forwardTurn svc s.db m (request, phase) = true :=
      (Option.all_eq_true _ _).mp hforward _ hi
    refine ⟨Tasks.valid_goOn h i ?_ (hgoes.recording hknows hforward) (fun y hy => ?_)
      fun _ _ => ⟨trivial, trivial⟩, fun k l hl => hcounts.le hknows hl⟩
    · exact settled_concat h.db (hlocked.session i _ hi) hknows hcounts _
        fun k step n hn haccepted => hgoes.accepted hn haccepted
    · exact (h.others hy).kept ((hlocked.pair_others hi hy).1.kept fun b => hgoes.kept)
  | @ended i m request phase sys reply hi hends =>
    have hknows := h.session i _ hi
    have hcounts := hends.counts hknows.noEnroll
    refine ⟨h.finish i ?_ fun y hy => ?_, fun k l hl => hcounts.le hknows hl⟩
    · exact settled_concat h.db (hlocked.session i _ hi) hknows hcounts _
        fun k step n hn haccepted => hends.accepted hn haccepted
    · exact (h.others hy).kept ((hlocked.pair_others hi hy).1.kept fun b => hends.kept)

end Step

theorem counting_idle (sys : LoginSystem) : Counting [] (.idle sys) :=
  ⟨locked_idle sys, Sessions.valid_idle fun _ =>
    ⟨List.nodup_nil, fun _ h => absurd h List.not_mem_nil⟩⟩

variable {svc : Service} {sys : LoginSystem} {events : List Event}

/-- If no confirmation goes back, the recorded step of a key never does, and no step is
accepted twice. -/
theorem steps_accepted_once (hrequests : ∀ e ∈ events, noEnroll e = true)
    (hforward : Along (step svc) (fun s e => forward svc s e = true) (.idle sys) events)
    (apiKeyId : Uuid) : (acceptedSteps apiKeyId (notes svc (.idle sys) events)).Nodup ∧
      ∀ before after, events = before ++ after →
        ∀ l, lastUsed (run (step svc) (.idle sys) before).db.mfa apiKeyId = some l →
          ∃ l', lastUsed (run (step svc) (.idle sys) events).db.mfa apiKeyId = some l' ∧
            l ≤ l' := by
  have hgood := hforward.and_forall hrequests
  have hcounting : ∀ {s : LoginSessions} {es}, (∃ ns, Counting ns s) →
      Along (step svc) (fun s e => forward svc s e = true ∧ noEnroll e = true) s es →
      ∃ ns, Counting ns (run (step svc) s es) := by
    intro s es hs h
    refine h.invariant (fun s => ∃ ns, Counting ns s) ?_ hs
    rintro s e ⟨ns, hs⟩ ⟨hforward, he⟩
    exact ⟨_, (counting_step hs he hforward).1⟩
  constructor
  · have hvalid := hgood.gathered Counting
      (fun ns s e hs h => (counting_step hs h.2 h.1).1) (counting_idle sys)
    exact (hvalid.2.db apiKeyId).1
  · rintro before after rfl l hl
    have hmiddle := hcounting ⟨[], counting_idle sys⟩ hgood.before
    have hend := hgood.after.invariant
      (fun s => (∃ ns, Counting ns s) ∧ ∃ l', lastUsed s.db.mfa apiKeyId = some l' ∧ l ≤ l')
      (by
        rintro s e ⟨⟨ns, hs⟩, l', hl', hle⟩ ⟨hforward, he⟩
        obtain ⟨hnext, hmono⟩ := counting_step hs he hforward
        obtain ⟨l'', hl'', hle'⟩ := hmono apiKeyId l' hl'
        exact ⟨⟨_, hnext⟩, l'', hl'', hle.trans hle'⟩)
      ⟨hmiddle, l, hl, le_rfl⟩
    rw [run_append]
    exact hend.2

theorem steps_accepted_once_phone :
    acceptedSteps phoneKey.id (notes phoneService (.idle phoneSystem)
        (phoneLogin (Uuid.repeated 'a' rfl) "5" ++ phoneConfirm "5")) = [5] ∧
      (acceptedSteps phoneKey.id (notes phoneService (.idle phoneSystem)
        (phoneLogin (Uuid.repeated 'a' rfl) "5" ++ phoneConfirm "5"))).Nodup :=
  ⟨by decide +kernel, (steps_accepted_once (by decide) (by decide +kernel) _).1⟩

/-- After a login with the code of step 5, the code of step 4 is still good for a
confirmation, which records it; and then a second login with the code of step 5 passes. -/
theorem step_accepted_twice : lastUsed (run (step phoneService) (.idle phoneSystem)
        (phoneLogin (Uuid.repeated 'a' rfl) "5")).db.mfa phoneKey.id = some 5 ∧
      lastUsed (run (step phoneService) (.idle phoneSystem)
        (phoneLogin (Uuid.repeated 'a' rfl) "5" ++ phoneConfirm "4")).db.mfa phoneKey.id =
          some 4 ∧
      acceptedSteps phoneKey.id (notes phoneService (.idle phoneSystem)
        (phoneLogin (Uuid.repeated 'a' rfl) "5" ++ phoneConfirm "4" ++
          phoneLogin (Uuid.repeated 'b' rfl) "5")) = [5, 5] :=
  ⟨by decide +kernel, by decide +kernel, by decide +kernel⟩

end WslVault.IdentityService.Login
