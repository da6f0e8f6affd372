import WslVault.LeaseManager.Verify.Leases

/-!
# Leases that expire

A sweep lists the leases that are due and marks them one after the other, and a renewal
looks at the state of a lease only, not at its end. So a lease that is renewed once its end
has come lives again, and a sweep that has listed it by then expires it with its new end
still ahead.
-/

namespace WslVault.LeaseManager

open Core Base Storage
open IdentityService (Moment)

namespace LeaseSystem

def Past (sys : LeaseSystem) (id : Uuid) : Prop :=
  ∃ l, sys.leases.lease id = some l ∧ l.expiresAt ≤ sys.clock

def Live (sys : LeaseSystem) (id : Uuid) : Prop :=
  ∃ l, sys.leases.lease id = some l ∧ l.state = .active ∧ sys.clock < l.expiresAt

variable {sys : LeaseSystem} {x : Request × Phase}

theorem Past.not_live {id : Uuid} (h : sys.Past id) : ¬ sys.Live id := by
  rintro ⟨l, hl, -, hahead⟩
  obtain ⟨l', hl', hpast⟩ := h
  rw [hl] at hl'
  cases hl'
  exact absurd hahead (not_lt.mpr hpast)

/-- The turn of a request is timely: time does not run back, a new lease has an id of its
own, and a renewal is written before the lease's end. -/
structure TimelyTurn (sys : LeaseSystem) (now : Timestamp) (request : Request) (phase : Phase) :
    Prop where
  clock : sys.clock ≤ now
  fresh : ∀ req id, request = .create req id → sys.leases.lease id = none
  renewal : ∀ id l, renews sys.leases request phase = some id → sys.leases.lease id = some l →
    l.state = .active → now < l.expiresAt

def Timely (s : LeaseSessions) : LeaseEvent → Prop
  | .resume i m => ∀ request phase, s.current.lookup i = some (request, phase) →
    s.db.TimelyTurn m.now request phase
  | _ => True

def ExpiresDue (configured : Bool) (s : LeaseSessions) (e : LeaseEvent) : Prop :=
  ∀ id l l', s.db.leases.lease id = some l → (step configured s e).1.db.leases.lease id = some l' →
    l.state ≠ .expired → l'.state = .expired → l.expiresAt ≤ (step configured s e).1.db.clock

section Turn

variable {configured : Bool} {fault : Option String} {sys sys' : LeaseSystem} {now : Timestamp}
  {request : Request} {phase : Phase} {next : Option Phase} {id : Uuid}

theorem Past.tick (h : sys.Past id) (hnow : sys.clock ≤ now) :
    { sys with clock := now }.Past id := by
  obtain ⟨l, hl, hpast⟩ := h
  exact ⟨l, hl, hpast.trans hnow⟩

theorem Past.replaces {leases : Backend} {j : Uuid} {l l' : LeaseRecord} (h : sys.Past id)
    (hreplace : sys.leases.Replaces leases j l l') (hsame : l'.expiresAt = l.expiresAt) :
    { sys with leases := leases }.Past id := by
  obtain ⟨k, hk, hpast⟩ := h
  by_cases hid : id = j
  · subst hid
    have hkl : k = l := Option.some.inj (hk.symm.trans hreplace.found)
    subst hkl
    exact ⟨l', hreplace.self, hsame.trans_le hpast⟩
  · exact ⟨k, (hreplace.of_ne hid).trans hk, hpast⟩

theorem Past.does (h : sys.Past id) (htimely : sys.TimelyTurn sys.clock request phase)
    (hdoes : Does configured fault sys request phase sys' next) : sys'.Past id := by
  cases hdoes with
  | nothing | load | loadOther | begin | list | skip | reap => exact h
  | create hactive _ hafter =>
    obtain ⟨l, hl, hpast⟩ := h
    refine ⟨l, ?_, hpast⟩
    rw [hafter, if_neg, hl]
    rintro rfl
    rw [htimely.fresh _ _ rfl] at hl
    cases hl
  | @renew _ _ _ j leases l expiresAt ttl hwhich hactive _ hreplace hnext =>
    obtain ⟨k, hk, hpast⟩ := h
    refine ⟨k, ?_, hpast⟩
    rw [hreplace.of_ne, hk]
    rintro rfl
    -- the lease that is renewed is not past
    have hkl : k = l := Option.some.inj (hk.symm.trans hreplace.found)
    subst hkl
    exact absurd (htimely.renewal _ _ hwhich hk hactive) (not_lt.mpr hpast)
  | revoke hid hreplace => exact h.replaces hreplace rfl
  | tell htell =>
    obtain ⟨revocations, rfl⟩ := revokeToken_eq_ok htell
    exact h
  | revokeTold hreplace => exact h.replaces hreplace rfl
  | tellDue htell =>
    obtain ⟨revocations, rfl⟩ := revokeToken_eq_ok htell
    exact h
  | mark hactive hreplace => exact h.replaces hreplace rfl
  | markNone hsame =>
    obtain ⟨l, hl, hpast⟩ := h
    exact ⟨l, (hsame id).trans hl, hpast⟩

/-- What a session has read before: the time a sweep starts from, and the leases that it
has listed, whose ends have come. -/
structure Recalls (sys : LeaseSystem) (x : Request × Phase) : Prop where
  since : ∀ since, x.2 = .listing since → since ≤ sys.clock
  due : ∀ r ∈ x.2.due, sys.Past r.id

theorem recalls_of_none (hsince : ∀ since, phase ≠ .listing since) (hdue : phase.due = []) :
    sys.Recalls (request, phase) where
  since := fun since h => absurd h (hsince since)
  due := by
    intro r hr
    rw [hdue] at hr
    exact absurd hr List.not_mem_nil

theorem recalls_of_plain (h : phase.Plain) : sys.Recalls (request, phase) := by
  refine recalls_of_none ?_ ?_
  · rintro since rfl
    exact h
  · cases phase with
    | start | permitted | renewing | renewed => rfl
    | ending | told | listing | sweeping | marking => exact h.elim

theorem Recalls.does (h : sys.Recalls x) (htimely : sys.TimelyTurn sys.clock request phase)
    (hdoes : Does configured fault sys request phase sys' next) : sys'.Recalls x where
  since := by
    intro since hsince
    rw [hdoes.clock]
    exact h.since since hsince
  due := fun r hr => (h.due r hr).does htimely hdoes

theorem Recalls.goOn {p : Phase} (h : sys.Recalls (request, phase))
    (htimely : sys.TimelyTurn sys.clock request phase)
    (hdoes : Does configured fault sys request phase sys' (some p)) :
    sys'.Recalls (request, p) := by
  have hkeep := h.does htimely hdoes
  cases hdoes with
  | nothing hnext => exact recalls_of_plain (hnext p rfl).1
  | renew _ _ _ _ hnext => exact recalls_of_plain (hnext p rfl).1
  | load | loadOther | tell => exact recalls_of_none (fun _ hsince => by cases hsince) rfl
  | begin =>
    refine ⟨fun since hsince => ?_, fun r hr => absurd hr List.not_mem_nil⟩
    cases hsince
    exact le_rfl
  | list hdue =>
    refine ⟨fun _ hsince => (by cases hsince), fun r hr => ?_⟩
    obtain ⟨hread, -, hpast⟩ := hdue r hr
    exact ⟨r, hread, hpast.trans (h.since _ rfl)⟩
  | @skip r due _ hphase =>
    refine ⟨fun _ hsince => (by cases hsince), fun r' hr' => h.due r' ?_⟩
    rcases hphase with rfl | rfl
    · exact List.mem_cons_of_mem r hr'
    · exact List.mem_cons_of_mem r hr'
  | tellDue htell => exact ⟨fun _ hsince => (by cases hsince), hkeep.due⟩
  | mark => exact ⟨fun _ hsince => (by cases hsince), fun r hr =>
      hkeep.due r (List.mem_cons_of_mem _ hr)⟩
  | markNone => exact ⟨fun _ hsince => (by cases hsince), fun r hr =>
      hkeep.due r (List.mem_cons_of_mem _ hr)⟩

theorem Recalls.expires {l l' : LeaseRecord} (h : sys.Recalls (request, phase))
    (hdoes : Does configured fault sys request phase sys' next)
    (hl : sys.leases.lease id = some l) (hl' : sys'.leases.lease id = some l')
    (hstate : l.state ≠ .expired) (hstate' : l'.state = .expired) : l.expiresAt ≤ sys.clock := by
  -- a record that is replaced by one in another state than expired
  have hreplaced : ∀ {j : Uuid} {leases : Backend} {k k' : LeaseRecord},
      sys.leases.Replaces leases j k k' → leases.lease id = some l' →
      (k'.state = .expired → k.state = .expired) → False := by
    intro j leases k k' hreplace hafter hkeep
    by_cases hid : id = j
    · subst hid
      cases hreplace.self.symm.trans hafter
      cases hreplace.found.symm.trans hl
      exact hstate (hkeep hstate')
    · rw [hreplace.of_ne hid, hl] at hafter
      cases hafter
      exact hstate hstate'
  have hsame : sys.leases.lease id = some l' → l.expiresAt ≤ sys.clock := by
    intro hafter
    cases hl.symm.trans hafter
    exact absurd hstate' hstate
  cases hdoes with
  | nothing | load | loadOther | begin | list | skip | reap => exact hsame hl'
  | create hactive _ hafter =>
    rw [hafter] at hl'
    split at hl'
    · cases hl'
      rw [hactive] at hstate'
      cases hstate'
    · exact hsame hl'
  | renew _ hactive _ hreplace => exact (hreplaced hreplace hl' fun h => h).elim
  | revoke _ hreplace => exact (hreplaced hreplace hl' (by rintro ⟨⟩)).elim
  | tell htell =>
    obtain ⟨revocations, rfl⟩ := revokeToken_eq_ok htell
    exact hsame hl'
  | revokeTold hreplace => exact (hreplaced hreplace hl' (by rintro ⟨⟩)).elim
  | tellDue htell =>
    obtain ⟨revocations, rfl⟩ := revokeToken_eq_ok htell
    exact hsame hl'
  | @mark r k due leases hactive hreplace =>
    by_cases hid : id = r.id
    · subst hid
      obtain ⟨k', hk', hpast⟩ := h.due r List.mem_cons_self
      cases hk'.symm.trans hl
      exact hpast
    · exact hsame ((hreplace.of_ne hid).symm.trans hl')
  | markNone hafter => exact hsame ((hafter id).symm.trans hl')

end Turn

section Step

variable {configured : Bool} {s : LeaseSessions} {e : LeaseEvent}

def Attentive (s : LeaseSessions) : Prop :=
  Sessions.Valid (fun _ => True) Recalls (fun _ _ => True) s

theorem TimelyTurn.tick {now : Timestamp} {request : Request} {phase : Phase}
    (h : sys.TimelyTurn now request phase) :
    { sys with clock := now }.TimelyTurn now request phase :=
  ⟨le_rfl, h.fresh, h.renewal⟩

theorem Recalls.tick {now : Timestamp}
    (h : sys.Recalls x) (hnow : sys.clock ≤ now) : { sys with clock := now }.Recalls x :=
  ⟨fun since hsince => (h.since since hsince).trans hnow, fun r hr => (h.due r hr).tick hnow⟩

theorem attentive_step (h : Attentive s) (htimely : Timely s e) :
    Attentive (step configured s e).1 := by
  refine Tasks.valid_step .start (advance configured) h ?_ ?_ ?_ ?_
  · exact fun _ => ⟨trivial, fun _ hx => hx⟩
  · intro i request _ _
    exact ⟨recalls_of_plain trivial, fun _ _ => ⟨trivial, trivial⟩⟩
  · rintro i m request phase db next rfl hi hadvance -
    have hturn := htimely request phase hi
    have hdoes := does_of_goOn hadvance
    refine ⟨trivial, ((h.session i _ hi).tick hturn.clock).goOn hturn.tick hdoes, fun y hy => ?_⟩
    exact ⟨((h.others hy).tick hturn.clock).does hturn.tick hdoes, trivial, trivial⟩
  · rintro i m request phase db reply rfl hi hadvance -
    have hturn := htimely request phase hi
    have hdoes := does_of_finish hadvance
    exact ⟨trivial, fun y hy => ((h.others hy).tick hturn.clock).does hturn.tick hdoes⟩

/-- Only a lease past its end expires, and it stays past it. -/
theorem timely_step (h : Attentive s) (htimely : Timely s e) :
    ExpiresDue configured s e ∧ ∀ id, s.db.Past id → (step configured s e).1.db.Past id := by
  rcases step_does configured s e with hsame | ⟨i, m, request, phase, next, rfl, hi, hdoes⟩
  · refine ⟨fun id l l' hl hl' hstate hstate' => ?_, fun id hpast => ?_⟩
    · rw [hsame, hl] at hl'
      cases hl'
      exact absurd hstate' hstate
    · rw [hsame]
      exact hpast
  · have hturn := htimely request phase hi
    refine ⟨fun id l l' hl hl' hstate hstate' => ?_, fun id hpast => ?_⟩
    · rw [hdoes.clock]
      exact ((h.session i _ hi).tick hturn.clock).expires hdoes hl hl' hstate hstate'
    · exact (hpast.tick hturn.clock).does hturn.tick hdoes

end Step

/-! ## Runs -/

/-- In every run in which renewals are written before the leases' ends, a lease is moved
to `Expired` only when its current end has come, and one whose end has come is not live
again. -/
theorem expiry_is_final (configured : Bool) (sys : LeaseSystem) (events : List LeaseEvent)
    (h : Along (step configured) Timely (Sessions.idle sys) events) :
    Along (step configured) (ExpiresDue configured) (Sessions.idle sys) events ∧
    ∀ before after, events = before ++ after → ∀ id,
      (run (step configured) (Sessions.idle sys) before).db.Past id →
        ¬ (run (step configured) (Sessions.idle sys) events).db.Live id := by
  have hidle : Attentive (Sessions.idle sys) := Sessions.valid_idle trivial
  refine ⟨h.imp_of_invariant Attentive ?_ hidle, ?_⟩
  · exact fun s e hs htimely => ⟨attentive_step hs htimely, (timely_step hs htimely).1⟩
  · rintro before after rfl id hpast
    have hbefore : Attentive (run (step configured) (Sessions.idle sys) before) :=
      h.before.invariant Attentive (fun s e hs htimely => attentive_step hs htimely) hidle
    have hend := h.after.invariant (fun s => Attentive s ∧ s.db.Past id)
      (fun s e hs htimely => ⟨attentive_step hs.1 htimely, (timely_step hs.1 htimely).2 id hs.2⟩)
      ⟨hbefore, hpast⟩
    rw [run_append]
    exact hend.2.not_live

def heldLease : Lease where
  id := .nil
  tenantId := .nil
  target := .dynamicSecret "db" "reader"
  state := .active
  ttlSeconds := 10
  maxTtlSeconds := 100
  renewable := true
  issuedAt := 0
  expiresAt := seconds 10
  revokedAt := none

def heldInMemory : LeaseSystem := ⟨.memory ⟨[.ofCoreLease heldLease], by decide⟩, .memory [], 0⟩

def heldInDatabase : LeaseSystem := ⟨.database [.nil] ⟨[heldLease], by decide⟩, .memory [], 0⟩

def renewAt (i : Nat) (t : Int) : List LeaseEvent :=
  [.arrive i (.renew Uuid.nil.toString 50), .resume i ⟨seconds t, none⟩,
    .resume i ⟨seconds t, none⟩, .resume i ⟨seconds t, none⟩]

def listAt (t : Int) : List LeaseEvent :=
  [.arrive 0 .sweep, .resume 0 ⟨seconds t, none⟩, .resume 0 ⟨seconds t, none⟩]

def markAt (t : Int) : List LeaseEvent :=
  [.resume 0 ⟨seconds t, none⟩, .resume 0 ⟨seconds t, none⟩]

theorem expiry_is_final_renewed : ¬ (run (step true) (Sessions.idle heldInMemory)
      (renewAt 1 5 ++ listAt 60 ++ markAt 61)).db.Live .nil := by
  refine (expiry_is_final true heldInMemory (renewAt 1 5 ++ listAt 60 ++ markAt 61) ?_).2
    (renewAt 1 5 ++ listAt 60) (markAt 61) rfl .nil ⟨_, rfl, by decide⟩
  -- what a turn of the sweep is asked for is that the time has not run back
  have hsweep : ∀ {sys : LeaseSystem} {now : Timestamp} {phase : Phase}, sys.clock ≤ now →
      renews sys.leases .sweep phase = none → sys.TimelyTurn now .sweep phase := by
    intro sys now phase hclock hnone
    refine ⟨hclock, by rintro _ _ ⟨⟩, fun id l hwhich => ?_⟩
    rw [hnone] at hwhich
    cases hwhich
  refine ⟨trivial, ?_, ?_, ?_, trivial, ?_, ?_, ?_, ?_, trivial⟩
  · rintro request phase ⟨⟩
    refine ⟨by decide, by rintro _ _ ⟨⟩, fun id l hwhich hl hactive => ?_⟩
    cases hwhich
    cases hl
    decide
  · rintro request phase ⟨⟩
  · rintro request phase ⟨⟩
  all_goals
    rintro request phase ⟨⟩
    exact hsweep (by decide) rfl

/-- A lease that is renewed after it has been listed is expired with its new end ahead, and
one that is renewed after its end lives again; in memory and in the database alike. -/
theorem expiry_is_overtaken : (¬ Along (step true) (ExpiresDue true) (Sessions.idle heldInMemory)
        (listAt 11 ++ renewAt 1 12 ++ markAt 13) ∧
      ¬ Along (step true) (ExpiresDue true) (Sessions.idle heldInDatabase)
        (listAt 11 ++ renewAt 1 12 ++ markAt 13)) ∧
    ((run (step true) (Sessions.idle heldInMemory) (listAt 11)).db.Past .nil ∧
      (run (step true) (Sessions.idle heldInMemory) (listAt 11 ++ renewAt 1 12)).db.Live .nil) ∧
    (run (step true) (Sessions.idle heldInDatabase) (listAt 11)).db.Past .nil ∧
      (run (step true) (Sessions.idle heldInDatabase)
        (listAt 11 ++ renewAt 1 12)).db.Live .nil := by
  refine ⟨⟨fun h => ?_, fun h => ?_⟩, ⟨⟨_, rfl, by decide⟩, _, rfl, rfl, by decide⟩,
    ⟨_, rfl, by decide⟩, _, rfl, rfl, by decide⟩
  · have hmark := h.after.2.1 .nil _ _ rfl rfl (by decide) rfl
    exact absurd hmark (by decide)
  · have hmark := h.after.2.1 .nil _ _ rfl rfl (by decide) rfl
    exact absurd hmark (by decide)

end LeaseSystem

end WslVault.LeaseManager
