import WslVault.Base.Map
import WslVault.Cluster.Leader

/-!
# One leader, and its lock

The flag of an elector is as old as its last round, and an elector that gives up its
connection does not give back the lock.
-/

namespace WslVault.Cluster

open Base

/-- The elector answers that it leads, or will when it hears from the server. -/
def Elector.Leads (e : Elector) : Prop := e.isLeader = true ∨ e.answer = some (.ok true)

namespace Election

/-- What a step changes: one elector, and the lock on its behalf. -/
inductive Moves (c : Election) : Event → Election → Prop where
  | none (event : Event) : Moves c event c
  | start {i} (hnew : i ∉ c.electors) : Moves c (.start i) (c.setElector i ⟨.none, false, .none⟩)
  | stop (i : Nat) : Moves c (.stop i) { c with electors := c.electors.erase i }
  | fail {i e} (he : c.electors.lookup i = some e) :
      Moves c (.acquire i .none) (c.setElector i { e with isLeader := false })
  | connect {i e s} (he : c.electors.lookup i = some e)
      (hnone : e.lockConn = .none) (hs : ¬ c.Kept s) : Moves c (.acquire i (some s))
        ({ c with alive := c.alive.insert s }.setElector i { e with lockConn := some s })
  | query {i e s fault holder answer} (he : c.electors.lookup i = some e)
      (hs : e.lockConn = some s) (hholder : holder = c.holder ∨ holder = some s ∧ c.holder = .none)
      (hanswer : answer = .ok true → holder = some s) : Moves c (.query i fault)
        ({ c with holder := holder }.setElector i { e with answer := some answer })
  | receive {i e answer} (he : c.electors.lookup i = some e) (hanswer : e.answer = some answer) :
      Moves c (.receive i) (c.setElector i (Elector.receive e answer))
  | lose (s : Session) :
      Moves c (.lose s) { c with holder := c.holder.filter (· ≠ s), alive := c.alive.erase s }

variable {c : Election} {i : Nat} {e : Elector} {s : Session}

theorem query_eq (c : Election) (s : Session) (fault : Option Fault) :
    ∃ holder, (c.query s fault).1 = { c with holder := holder } ∧
      (holder = c.holder ∨ holder = some s ∧ c.holder = none) ∧
      ((c.query s fault).2 = .ok true → holder = some s) := by
  have hlock : ∃ holder, (c.tryLock s).1 = { c with holder := holder } ∧
      (holder = c.holder ∨ holder = some s ∧ c.holder = none) ∧
      ((c.tryLock s).2 = true → holder = some s) := by
    rw [tryLock]
    split
    · next hfree =>
      exact ⟨some s, rfl, hfree.elim (fun h => .inr ⟨rfl, h⟩) fun h => .inl h.symm, fun _ => rfl⟩
    · exact ⟨c.holder, rfl, .inl rfl, fun h => nomatch h⟩
  obtain ⟨holder, heq, hholder, hgiven⟩ := hlock
  rw [query.eq_def]
  split
  · exact ⟨c.holder, rfl, .inl rfl, fun h => nomatch h⟩
  · split
    · exact ⟨c.holder, rfl, .inl rfl, fun h => nomatch h⟩
    · exact ⟨holder, heq, hholder, fun h => nomatch h⟩
    · exact ⟨holder, heq, hholder, fun h => hgiven (Except.ok.inj h)⟩

theorem step_moves (c : Election) (event : Event) : Moves c event (c.step event) := by
  cases event with
  | start i =>
    rw [step]
    split
    · exact .none _
    · next hnew => exact .start hnew
  | stop i => exact .stop i
  | acquire i conn =>
    rw [step]
    split
    · next e he =>
      split
      · next hnone =>
        cases conn with
        | none => exact .fail he
        | some s =>
          rw [acquire]
          split
          · exact .none _
          · next hs => exact .connect he hnone hs
      · exact .none _
    · exact .none _
  | query i fault =>
    rw [step]
    split
    · next e he =>
      split
      · next s hs _ =>
        obtain ⟨holder, heq, hholder, hanswer⟩ := query_eq c s fault
        rw [heq]
        exact .query he hs hholder hanswer
      · exact .none _
    · exact .none _
  | receive i =>
    rw [step]
    split
    · next e he =>
      split
      · next answer hanswer => exact .receive he hanswer
      · exact .none _
    · exact .none _
  | lose s => exact .lose s

/-! ## One leader -/

structure Sound (c : Election) : Prop where
  leads : ∀ i e, c.electors.lookup i = some e → e.Leads →
    ∃ s, e.lockConn = some s ∧ c.holder = some s
  apart : ∀ i j e e' s, c.electors.lookup i = some e → c.electors.lookup j = some e' →
    e.lockConn = some s → e'.lockConn = some s → i = j

variable {e' : Elector} {holder : Option Session} {alive : List Session} {c' : Election}
  {event : Event}

theorem Sound.setElector (h : Sound c) (hconn : ∀ s, e'.lockConn = some s →
      ∀ j f, j ≠ i → c.electors.lookup j = some f → f.lockConn ≠ some s)
    (hholder : ∀ s, c.holder = some s → holder = some s)
    (hleads : e'.Leads → ∃ s, e'.lockConn = some s ∧ holder = some s) :
    Sound (Election.setElector { c with holder := holder, alive := alive } i e') := by
  refine ⟨fun j f hj hl => ?_, fun j k f g s hj hk hf hg => ?_⟩
  · rw [Election.setElector, lookup_insert_eq] at hj
    split at hj
    · cases hj
      exact hleads hl
    · obtain ⟨s, hs, hheld⟩ := h.leads j f hj hl
      exact ⟨s, hs, hholder s hheld⟩
  · rw [Election.setElector, lookup_insert_eq] at hj hk
    split at hj <;> split at hk
    · next hji hki => exact hji.trans hki.symm
    · next hki =>
      cases hj
      exact absurd hg (hconn s hf k g hki hk)
    · next hji _ =>
      cases hk
      exact absurd hf (hconn s hg j f hji hj)
    · exact h.apart j k f g s hj hk hf hg

theorem Sound.others (h : Sound c) (he : c.electors.lookup i = some e)
    (hconn : e'.lockConn = e.lockConn ∨ e'.lockConn = none) (s : Session)
    (hs : e'.lockConn = some s) (j : Nat) (f : Elector) (hne : j ≠ i)
    (hf : c.electors.lookup j = some f) : f.lockConn ≠ some s := by
  intro hfs
  rcases hconn with hconn | hconn
  · exact hne (h.apart j i f e s hf he hfs (hconn ▸ hs))
  · cases hconn.symm.trans hs

def Noticed (c : Election) : Event → Prop
  | .lose s => ∀ x ∈ c.electors.entries, x.2.lockConn = some s → ¬ x.2.Leads
  | _ => True

/-- A leader holds the lock, as long as a replica that loses its session steps down first. -/
theorem Moves.sound (hmoves : Moves c event c') (h : Sound c)
    (hevent : c.Noticed event) : Sound c' := by
  cases hmoves with
  | none => exact h
  | start =>
    refine h.setElector (fun _ hs => nomatch hs) (fun _ hs => hs) fun hl => ?_
    exact hl.elim (fun hl => nomatch hl) fun hl => nomatch hl
  | stop i =>
    have hlookup : ∀ j e, (c.electors.erase i).lookup j = some e → c.electors.lookup j = some e :=
      fun j e he => (lookup_of_lookup_erase he).2
    exact ⟨fun j e he => h.leads j e (hlookup j e he), fun j k e e' s hj hk =>
      h.apart j k e e' s (hlookup j e hj) (hlookup k e' hk)⟩
  | @fail i e he =>
    refine h.setElector (h.others he (.inl rfl)) (fun _ hs => hs) fun hl => ?_
    exact h.leads i e he (.inr (hl.resolve_left fun hl => nomatch hl))
  | connect he hnone hs =>
    refine h.setElector ?_ (fun _ hs => hs) fun hl => ?_
    · rintro s ⟨⟩ j f - hf hfs
      exact hs ⟨⟨j, f⟩, AList.mem_lookup_iff.mp hf, hfs⟩
    · obtain ⟨s, hs', -⟩ := h.leads _ _ he hl
      cases hnone.symm.trans hs'
  | @query i e s fault holder answer he hs hholder hanswer =>
    refine h.setElector (h.others he (.inl rfl)) (fun s' hs' => ?_) fun hl => ⟨s, hs, ?_⟩
    · rcases hholder with rfl | ⟨-, hfree⟩
      · exact hs'
      · cases hfree.symm.trans hs'
    · rcases hl with hl | hl
      · obtain ⟨s', hs', hheld⟩ := h.leads i e he (.inl hl)
        cases hs.symm.trans hs'
        rcases hholder with rfl | ⟨hgiven, -⟩
        · exact hheld
        · exact hgiven
      · exact hanswer (Option.some.inj hl)
  | @receive i e answer he hanswer =>
    cases answer with
    | ok leads =>
      refine h.setElector (h.others he (.inl rfl)) (fun _ hs => hs) fun hl => ?_
      obtain rfl : leads = true := hl.resolve_right fun hl => nomatch hl
      exact h.leads i e he (.inr hanswer)
    | error _ =>
      refine h.setElector (fun _ hs => nomatch hs) (fun _ hs => hs) fun hl => ?_
      exact hl.elim (fun hl => nomatch hl) fun hl => nomatch hl
  | lose s =>
    refine ⟨fun i e he hl => ?_, h.apart⟩
    obtain ⟨s', hs', hheld⟩ := h.leads i e he hl
    refine ⟨s', hs', Option.filter_eq_some_iff.mpr ⟨hheld, decide_eq_true ?_⟩⟩
    rintro rfl
    exact hevent ⟨i, e⟩ (AList.mem_lookup_iff.mp he) hs' hl

def OneLeader (c : Election) : Prop :=
  ∀ i j, ∀ e ∈ c.electors.lookup i, ∀ e' ∈ c.electors.lookup j,
    e.isLeader = true → e'.isLeader = true → i = j

/-- If the server ends no session whose elector leads, there is one leader at most. -/
theorem one_leader (events : List Event) (h : Along (fun c e => (step c e, ())) Noticed
      { holder := none, alive := [], electors := ∅ } events) : OneLeader (after events) := by
  intro i j e he e' he' hl hl'
  have hsound : Sound (after events) := by
    refine h.invariant Sound (fun c e hs he => (step_moves c e).sound hs he) ⟨?_, ?_⟩
    · exact fun _ _ h => nomatch h
    · exact fun _ _ _ _ _ h => nomatch h
  obtain ⟨s, hs, hheld⟩ := hsound.leads i e he (.inl hl)
  obtain ⟨s', hs', hheld'⟩ := hsound.leads j e' he' (.inl hl')
  cases hheld.symm.trans hheld'
  exact hsound.apart i j e e' s he he' hs hs'

def election (i : Nat) (s : Session) : List Event :=
  [.start i, .acquire i (some s), .query i none, .receive i]

/-- The leader gives up its connection, the server ends the session, and the other elector
takes over. -/
def handover : List Event :=
  election 0 10 ++ election 1 11 ++ [.query 0 (some .notRun), .receive 0, .lose 10,
    .query 1 none, .receive 1, .acquire 0 (some 12), .query 0 none, .receive 0]

theorem one_leader_of_two : OneLeader (after handover) ∧
    ((after handover).electors.lookup 1).map Elector.isLeader = some true := by
  refine ⟨one_leader handover ?_, rfl⟩
  simp only [handover, election, Along, Noticed, List.cons_append, List.nil_append, true_and,
    and_true]
  exact fun x hx hs => absurd (⟨x, hx, hs⟩ : Kept _ 10) (by decide)

/-- The server ends the leader's session and gives the lock to another elector before
the first one asks again. -/
theorem two_leaders : ((after (election 0 10 ++ .lose 10 :: election 1 11)).electors.lookup 0).map
        Elector.isLeader = some true ∧
      ((after (election 0 10 ++ .lose 10 :: election 1 11)).electors.lookup 1).map
        Elector.isLeader = some true :=
  ⟨rfl, rfl⟩

/-- An elector gives up no connection whose session has the lock. -/
def Attended (c : Election) : Event → Prop
  | .stop i => ∀ e ∈ c.electors.lookup i, e.lockConn = none ∨ e.lockConn ≠ c.holder
  | .receive i => ∀ e ∈ c.electors.lookup i, (∃ u, e.answer = some (.error u)) →
      e.lockConn = none ∨ e.lockConn ≠ c.holder
  | _ => True

/-- The lock, if it is given, is with an elector that runs. -/
def Attends (c : Election) : Prop :=
  ∀ s ∈ c.holder, ∃ i, ∃ e ∈ c.electors.lookup i, e.lockConn = some s

theorem Attends.setElector (h : Attends c)
    (hholder : ∀ s, holder = some s → c.holder = some s ∨ e'.lockConn = some s)
    (hkeeps : ∀ e s, c.electors.lookup i = some e → e.lockConn = some s → c.holder = some s →
      e'.lockConn = some s) :
    Attends (Election.setElector { c with holder := holder, alive := alive } i e') := by
  have hnew : ∀ s, e'.lockConn = some s → ∃ j, ∃ e ∈ (c.electors.insert i e').lookup j,
      e.lockConn = some s := fun s hs => ⟨i, e', AList.lookup_insert _, hs⟩
  intro s hs
  rcases hholder s hs with hheld | hheld
  · obtain ⟨j, e, he, hes⟩ := h s hheld
    by_cases hji : j = i
    · subst hji
      exact hnew s (hkeeps e s he hes hheld)
    · exact ⟨j, e, (AList.lookup_insert_ne hji).trans he, hes⟩
  · exact hnew s hheld

theorem Moves.attends (hmoves : Moves c event c')
    (h : Attends c) (hevent : c.Attended event) : Attends c' := by
  cases hmoves with
  | none => exact h
  | start hnew =>
    refine h.setElector (fun _ hs => .inl hs) fun e s he => ?_
    exact absurd (mem_of_lookup he) hnew
  | stop i =>
    intro s hs
    obtain ⟨j, e, he, hes⟩ := h s hs
    refine ⟨j, e, (AList.lookup_erase_ne ?_).trans he, hes⟩
    rintro rfl
    rcases hevent e he with hnone | hne
    · cases hnone.symm.trans hes
    · exact hne (hes.trans hs.symm)
  | fail he =>
    refine h.setElector (fun _ hs => .inl hs) fun e s he' hes _ => ?_
    cases he.symm.trans he'
    exact hes
  | connect he hnone =>
    refine h.setElector (fun _ hs => .inl hs) fun e s he' hes _ => ?_
    cases he.symm.trans he'
    cases hnone.symm.trans hes
  | query he hs hholder =>
    refine h.setElector (fun s' hs' => ?_) fun e s he' hes _ => ?_
    · rcases hholder with rfl | ⟨rfl, -⟩
      · exact .inl hs'
      · exact .inr (hs.trans hs')
    · cases he.symm.trans he'
      exact hes
  | @receive i e answer he hanswer =>
    refine h.setElector (fun _ hs => .inl hs) fun e' s he' hes hs => ?_
    cases he.symm.trans he'
    cases answer with
    | ok leads => exact hes
    | error u =>
      rcases hevent e he ⟨u, hanswer⟩ with hnone | hne
      · cases hnone.symm.trans hes
      · exact absurd (hes.trans hs.symm) hne
  | lose s => exact fun s' hs' => h s' (Option.filter_eq_some_iff.mp hs').1

/-- If electors give up no connection whose session has the lock, the lock is with an
elector that runs. -/
theorem lock_with_elector (events : List Event) (h : Along (fun c e => (step c e, ())) Attended
      { holder := none, alive := [], electors := ∅ } events) : Attends (after events) :=
  h.invariant Attends (fun c e hs he => (step_moves c e).attends hs he) fun _ hs => nomatch hs

/-- The leader learns from its next query that the server has ended the session. -/
def failover : List Event :=
  election 0 10 ++ [.lose 10, .query 0 none, .receive 0] ++ election 1 11

theorem lock_with_leader : (after failover).holder = some 11 ∧ Attends (after failover) := by
  refine ⟨rfl, lock_with_elector failover ?_⟩
  simp only [failover, election, Along, Attended, List.cons_append, List.nil_append, true_and,
    and_true]
  refine ⟨?_, ?_, ?_⟩
  · rintro _ ⟨⟩ ⟨_, ⟨⟩⟩
  · rintro _ ⟨⟩ -
    exact .inr (by decide)
  · rintro _ ⟨⟩ ⟨_, ⟨⟩⟩

/-- The leader's next query fails on a session that stays alive. Its connection goes
back to the pool with the lock, and the elector does not get it on a new one. -/
theorem lock_without_elector :
    (after (election 0 10 ++ [.query 0 (some .notRun), .receive 0, .acquire 0 (some 11),
        .query 0 none, .receive 0])).holder = some 10 ∧
      ((after (election 0 10 ++ [.query 0 (some .notRun), .receive 0, .acquire 0 (some 11),
        .query 0 none, .receive 0])).electors.lookup 0).map Elector.lockConn = some (some 11) :=
  ⟨rfl, rfl⟩

end Election

end WslVault.Cluster
