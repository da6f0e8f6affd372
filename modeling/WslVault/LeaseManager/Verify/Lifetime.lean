import WslVault.LeaseManager.Verify.Leases

/-!
# The lifetime of a lease

A renewal in the database is written turns after it was clamped, and keeps to the cap because
neither issue time nor longest lifetime of a record ever change (`LeaseRecord.Follows`).
-/

namespace WslVault.LeaseManager

open Core Base Storage
open IdentityService (Moment)

namespace LeaseSystem

def FreshIds (s : LeaseSessions) : LeaseEvent → Prop
  | .resume i _ => ∀ req id phase, s.current.lookup i = some (.create req id, phase) →
    s.db.leases.lease id = none
  | _ => True

def Capped (sys : LeaseSystem) : Prop :=
  ∀ id l, sys.leases.lease id = some l → l.expiresAt ≤ l.cap

section Turn

variable {configured : Bool} {fault : Option String} {sys sys' : LeaseSystem}
  {request : Request} {phase p : Phase} {next : Option Phase}

theorem Capped.replaces {leases : Backend} {id : Uuid} {l l' : LeaseRecord} (h : sys.Capped)
    (hreplace : sys.leases.Replaces leases id l l')
    (hcap : l.expiresAt ≤ l.cap → l'.expiresAt ≤ l'.cap) :
    { sys with leases := leases }.Capped := by
  intro j k hk
  by_cases hj : j = id
  · subst hj
    cases hreplace.self.symm.trans hk
    exact hcap (h j l hreplace.found)
  · exact h j k ((hreplace.of_ne hj).symm.trans hk)

theorem Does.capped (hdoes : Does configured fault sys request phase sys' next) (h : sys.Capped)
    (hplans : sys.Plans phase) : sys'.Capped := by
  cases hdoes with
  | nothing | load | loadOther | begin | list | skip | reap => exact h
  | create _ hcap hafter =>
    intro j k hk
    rw [hafter] at hk
    split at hk
    · cases hk
      exact hcap
    · exact h j k hk
  | renew _ _ hend hreplace =>
    refine h.replaces hreplace fun _ => ?_
    rcases hend with hplanned | hcap
    · -- the end was computed for the same lease
      obtain ⟨l, hl, hcap⟩ := hplans _ _ hplanned
      cases hl.symm.trans hreplace.found
      exact hcap
    · exact hcap
  | revoke _ hreplace => exact h.replaces hreplace fun hcap => hcap
  | revokeTold hreplace => exact h.replaces hreplace fun hcap => hcap
  | mark _ hreplace => exact h.replaces hreplace fun hcap => hcap
  | tell htell | tellDue htell =>
    obtain ⟨revocations, rfl⟩ := revokeToken_eq_ok htell
    exact h
  | markNone hsame => exact fun j k hk => h j k ((hsame j).symm.trans hk)

theorem Does.plans_other (hdoes : Does configured fault sys request phase sys' next)
    (hfresh : ∀ req id, request = .create req id → sys.leases.lease id = none)
    (h : sys.Plans p) : sys'.Plans p := by
  intro id expiresAt hplanned
  obtain ⟨l, hl, hcap⟩ := h id expiresAt hplanned
  obtain ⟨l', hl', hfollows⟩ := hdoes.follows hfresh hl
  exact ⟨l', hl', hfollows.cap ▸ hcap⟩

theorem plans_of_none (h : p.planned = none) : sys.Plans p := by
  intro id expiresAt hplanned
  rw [h] at hplanned
  cases hplanned

theorem Does.plans (hdoes : Does configured fault sys request phase sys' (some p)) :
    sys'.Plans p := by
  cases hdoes with
  | nothing hnext => exact (hnext p rfl).2
  | renew _ _ _ _ hnext => exact plans_of_none (hnext p rfl).2
  | _ => exact plans_of_none rfl

end Turn

section Step

variable {configured : Bool} {s : LeaseSessions} {e : LeaseEvent}

/-- Every lease keeps to its cap, and every renewal that is to be written does. -/
def Bounded (s : LeaseSessions) : Prop :=
  Sessions.Valid Capped (fun sys x => sys.Plans x.2) (fun _ _ => True) s

theorem FreshIds.turn {i : Nat} {m : Moment} {request : Request} {phase : Phase}
    (h : FreshIds s (.resume i m)) (hi : s.current.lookup i = some (request, phase)) :
    ∀ req id, request = .create req id →
      ({ s.db with clock := m.now } : LeaseSystem).leases.lease id = none := by
  rintro req id rfl
  exact h req id phase hi

/-- A renewal that was planned is still within the cap when it is written. -/
theorem bounded_step (h : Bounded s) (hfresh : FreshIds s e) : Bounded (step configured s e).1 := by
  refine Tasks.valid_step .start (advance configured) h ?_ ?_ ?_ ?_
  · exact fun _ => ⟨h.db, fun _ hx => hx⟩
  · exact fun i request _ _ => ⟨plans_of_none rfl, fun _ _ => ⟨trivial, trivial⟩⟩
  · rintro i m request phase db next rfl hi hadvance -
    have hdoes := does_of_goOn hadvance
    refine ⟨hdoes.capped h.db (h.session i _ hi), hdoes.plans, fun y hy => ?_⟩
    exact ⟨hdoes.plans_other (hfresh.turn hi) (h.others hy), trivial, trivial⟩
  · rintro i m request phase db reply rfl hi hadvance -
    have hdoes := does_of_finish hadvance
    refine ⟨hdoes.capped h.db (h.session i _ hi), fun y hy => ?_⟩
    exact hdoes.plans_other (hfresh.turn hi) (h.others hy)

theorem follows_step (hfresh : FreshIds s e) {id : Uuid} {l : LeaseRecord}
    (hl : s.db.leases.lease id = some l) :
    ∃ l', (step configured s e).1.db.leases.lease id = some l' ∧ l.Follows l' := by
  rcases step_does configured s e with hsame | ⟨i, m, request, phase, next, rfl, hi, hdoes⟩
  · exact ⟨l, by rw [hsame, hl], .refl l⟩
  · exact hdoes.follows (hfresh.turn hi) hl

end Step

/-- In every run of creations, renewals, revocations and sweeps on either backend, from leases
that keep to their caps: every lease ends at most its longest lifetime after its issue, one
that is revoked stays so, and one that is expired is not active again. -/
theorem lease_lifetime (configured : Bool) (sys : LeaseSystem) (hcapped : sys.Capped)
    (events : List LeaseEvent)
    (hfresh : Along (step configured) FreshIds (Sessions.idle sys) events) :
    (∀ id l, (run (step configured) (Sessions.idle sys) events).db.leases.lease id = some l →
      l.expiresAt ≤ l.issuedAt + seconds l.maxTtlSeconds) ∧
    ∀ before after, events = before ++ after → ∀ id l,
      (run (step configured) (Sessions.idle sys) before).db.leases.lease id = some l →
      ∃ l', (run (step configured) (Sessions.idle sys) events).db.leases.lease id = some l' ∧
        (l.state = .revoked → l'.state = .revoked) ∧ (l.state = .expired → l'.state ≠ .active) := by
  constructor
  · have hbounded : Bounded (run (step configured) (Sessions.idle sys) events) :=
      hfresh.invariant Bounded (fun s e hs he => bounded_step hs he) (Sessions.valid_idle hcapped)
    exact hbounded.db
  · rintro before after rfl id l hl
    rw [run_append]
    refine hfresh.after.invariant
      (fun s => ∃ l', s.db.leases.lease id = some l' ∧ (l.state = .revoked → l'.state = .revoked) ∧
        (l.state = .expired → l'.state ≠ .active))
      (fun s e hs he => ?_) ⟨l, hl, fun h => h, fun h => by rw [h]; exact LeaseState.noConfusion⟩
    obtain ⟨l', hl', hrevoked, hexpired⟩ := hs
    obtain ⟨l'', hl'', hfollows⟩ := follows_step he hl'
    exact ⟨l'', hl'', fun h => hfollows.revoked (hrevoked h), fun h => hfollows.ended (hexpired h)⟩

def revokedMeanwhile : List LeaseEvent :=
  [.arrive 0 (.create ⟨Uuid.nil.toString, "", .json (.dynamicSecret "db" "reader"), 10, 100, true⟩
      .nil), .resume 0 ⟨0, none⟩,
    .arrive 1 (.renew Uuid.nil.toString 500), .resume 1 ⟨seconds 5, none⟩,
    .arrive 2 (.revoke Uuid.nil.toString), .resume 2 ⟨seconds 6, none⟩]

theorem lease_lifetime_revoked_meanwhile :
    ∃ l, (run (step true) (Sessions.idle ⟨.database [.nil] .empty, .memory [], 0⟩)
      (revokedMeanwhile ++ [.resume 1 ⟨seconds 7, none⟩])).db.leases.lease .nil = some l ∧
      l.state = .revoked := by
  have hcapped : Capped ⟨.database [.nil] .empty, .memory [], 0⟩ := by
    rintro id l ⟨⟩
  have hfresh : Along (step true) FreshIds (Sessions.idle ⟨.database [.nil] .empty, .memory [], 0⟩)
      (revokedMeanwhile ++ [.resume 1 ⟨seconds 7, none⟩]) := by
    refine ⟨trivial, ?_, trivial, ?_, trivial, ?_, ?_, trivial⟩
    all_goals
      rintro req id phase ⟨⟩
    rfl
  obtain ⟨l, hl, hrevoked, -⟩ :=
    (lease_lifetime true _ hcapped _ hfresh).2 revokedMeanwhile _ rfl .nil _ rfl
  exact ⟨l, hl, hrevoked rfl⟩

end LeaseSystem

end WslVault.LeaseManager
