import WslVault.ReplicationAgent.Outbox

/-!
# Delivery and position

The two readings of the position agree on what was delivered when no event for the peer is
the first row of all, none is recorded with a time the peer is already past, and no two have
the same time (`Link.Orderly`).
-/

namespace WslVault.ReplicationAgent

open Core Base Storage

namespace Consumer

variable {config : Config} {regionId : String}
  {serve : EventsQuery → Except PollError (List ReplicationEvent)} {draws : Nat → Draw}
  {c : Consumer} {events : List ReplicationEvent}

section

variable (updateFails : Bool) (hserve : serve ⟨some config.localRegion,
  some (c.getLastSequence regionId), some config.batchSize⟩ = .ok events)

include hserve

/-- A poll with an answer moves the position by the events of the answer, unless
the statement that moves it fails. -/
theorem getLastSequence_fetch :
    (c.fetchAndApplyEvents config regionId serve draws false updateFails).1.getLastSequence
      regionId = c.getLastSequence regionId + if updateFails then 0 else (events.length : Int) := by
  simp only [fetchAndApplyEvents, hserve, eventsLastSeq]
  cases events with
  | nil => cases updateFails <;> exact (Int.add_zero _).symm
  | cons e events =>
    cases updateFails with
    | true => exact (Int.add_zero _).symm
    | false => simp [getLastSequence, updateLastSequence]

theorem replica_fetch :
    (c.fetchAndApplyEvents config regionId serve draws false updateFails).1.replica =
      (c.applyEvents config draws events).replica := by
  simp only [fetchAndApplyEvents, hserve]
  cases eventsLastSeq events (c.getLastSequence regionId) with
  | none => rfl
  | some seq => cases updateFails <;> rfl

end

theorem fetch_of_error {e : PollError} (readFails updateFails : Bool)
    (hserve : ∀ q, serve q = .error e) :
    (c.fetchAndApplyEvents config regionId serve draws readFails updateFails).1 = c := by
  cases readFails with
  | true => rfl
  | false => simp only [fetchAndApplyEvents, hserve, Bool.false_eq_true, if_false]

end Consumer

namespace Link

variable (config : Config) (regionId : String)

abbrev forPeer (e : ReplicationEvent) : Bool := e.sourceRegion != config.localRegion

/-- An event for the peer is recorded with a time of its own, later than what
was delivered. A poll's query does not fail, and at the start of the outbox finds
an event of the peer itself. -/
def Orderly (l : Link) : LinkEvent → Prop
  | .record e => forPeer config e = true → (∀ d ∈ l.delivered, d.createdAt < e.createdAt) ∧
      ∀ f ∈ l.outbox, forPeer config f = true → f.createdAt ≠ e.createdAt
  | .poll _ _ faults => faults.queryFails = false ∧ (l.consumer.getLastSequence regionId = 0 →
        Feed.FirstUnwanted ReplicationEvent.createdAt (forPeer config) l.outbox)

structure Behind (l : Link) : Prop where
  nonneg : 0 ≤ l.consumer.getLastSequence regionId
  covered : Feed.Covered ReplicationEvent.createdAt (forPeer config) l.outbox l.delivered
    (l.consumer.getLastSequence regionId).toNat
  distinct : Feed.Distinct ReplicationEvent.createdAt (forPeer config) l.outbox

variable {config regionId} {l : Link} {tie : ReplicationEvent → Nat} {draws : Nat → Draw}
  {faults : Faults}

variable (config regionId l tie) in
def nextBatch : List ReplicationEvent :=
  Feed.batch ReplicationEvent.createdAt tie 0 (forPeer config) (min config.batchSize 1000) l.outbox
    (l.consumer.getLastSequence regionId).toNat

variable (config tie) in
theorem serve_eq_nextBatch (hrequest : faults.requestFails = false)
    (hquery : faults.queryFails = false) (hnonneg : 0 ≤ l.consumer.getLastSequence regionId) :
    l.serve tie faults ⟨some config.localRegion, some (l.consumer.getLastSequence regionId),
      some config.batchSize⟩ = .ok (l.nextBatch config regionId tie) := by
  have hlimit : ¬ min (config.batchSize : Int) 1000 < 0 := by omega
  have hnat : (min (config.batchSize : Int) 1000).toNat = min config.batchSize 1000 := by omega
  simp only [serve, hrequest, getEventsHandler, hquery, selectEvents, Option.getD_some,
    if_neg hlimit, if_neg (not_lt.mpr hnonneg), hnat]
  rfl

variable (draws) in
/-- A poll gets no answer and changes nothing, or brings the next batch, tries to apply it and
moves the position over it, if the statement for that does not fail. -/
theorem poll_cases (hquery : faults.queryFails = false)
    (hnonneg : 0 ≤ l.consumer.getLastSequence regionId) :
    (l.answer config regionId tie faults = none ∧
      (l.step config regionId (.poll tie draws faults)).1.consumer = l.consumer) ∨
    (l.answer config regionId tie faults = some (l.nextBatch config regionId tie) ∧
      (l.step config regionId (.poll tie draws faults)).1.consumer.replica =
        (l.consumer.applyEvents config draws (l.nextBatch config regionId tie)).replica ∧
      (l.step config regionId (.poll tie draws faults)).1.consumer.getLastSequence regionId =
        l.consumer.getLastSequence regionId +
          if faults.updateFails then 0 else ((l.nextBatch config regionId tie).length : Int)) := by
  cases hread : faults.readFails with
  | true =>
    refine .inl ⟨by rw [answer, hread]; rfl, ?_⟩
    rw [step, hread]
    rfl
  | false =>
    cases hrequest : faults.requestFails with
    | true =>
      have hserve : ∀ q, l.serve tie faults q = .error .request := fun q => by
        rw [serve, hrequest]
        rfl
      refine .inl ⟨?_, Consumer.fetch_of_error _ _ hserve⟩
      rw [answer, hread, hserve]
      rfl
    | false =>
      have hserve := serve_eq_nextBatch config tie hrequest hquery hnonneg
      refine .inr ⟨?_, ?_, ?_⟩
      · rw [answer, hread, hserve]
        rfl
      · rw [step, hread]
        exact Consumer.replica_fetch faults.updateFails hserve
      · rw [step, hread]
        exact Consumer.getLastSequence_fetch faults.updateFails hserve

section

variable (h : l.Behind config regionId)
include h

theorem Behind.record {e : ReplicationEvent} (horder : l.Orderly config regionId (.record e)) :
    (l.step config regionId (.record e)).1.Behind config regionId := by
  refine ⟨h.nonneg, h.covered.append fun hpeer => (horder hpeer).1, ?_⟩
  intro x hx y hy hxpeer hypeer heq
  rcases List.mem_append.mp hx with hx | hx
  · rcases List.mem_append.mp hy with hy | hy
    · exact h.distinct x hx y hy hxpeer hypeer heq
    · rw [List.mem_singleton.mp hy] at hypeer heq
      exact absurd heq ((horder hypeer).2 x hx hxpeer)
  · rw [List.mem_singleton.mp hx] at hxpeer heq ⊢
    rcases List.mem_append.mp hy with hy | hy
    · exact absurd heq.symm ((horder hxpeer).2 y hy hypeer)
    · exact (List.mem_singleton.mp hy).symm

theorem Orderly.firstUnwanted
    (horder : l.Orderly config regionId (.poll tie draws faults))
    (hzero : (l.consumer.getLastSequence regionId).toNat = 0) :
    Feed.FirstUnwanted ReplicationEvent.createdAt (forPeer config) l.outbox :=
  horder.2 (le_antisymm (Int.toNat_eq_zero.mp hzero) h.nonneg)

theorem Behind.poll (horder : l.Orderly config regionId (.poll tie draws faults)) :
    (l.step config regionId (.poll tie draws faults)).1.Behind config regionId := by
  have hnonneg := h.nonneg
  rcases poll_cases draws horder.1 hnonneg with ⟨-, hconsumer⟩ | ⟨hanswer, -, hseq⟩
  · refine ⟨?_, ?_, h.distinct⟩
    · rw [hconsumer]
      exact hnonneg
    · rw [hconsumer]
      exact h.covered.give _
  · refine ⟨?_, ?_, h.distinct⟩
    · rw [hseq]
      split <;> omega
    · rw [hseq]
      show Feed.Covered _ _ l.outbox (l.delivered ++ _) _
      rw [hanswer]
      cases faults.updateFails with
      | true =>
        rw [if_pos rfl, Int.add_zero]
        exact h.covered.give _
      | false =>
        rw [if_neg Bool.false_ne_true, Int.toNat_add hnonneg (Int.natCast_nonneg _),
          Int.toNat_natCast]
        exact h.covered.advance (Orderly.firstUnwanted h horder) h.distinct

theorem Behind.step {e : LinkEvent} (horder : l.Orderly config regionId e) :
    (l.step config regionId e).1.Behind config regionId := by
  cases e with
  | record e => exact h.record horder
  | poll tie draws faults => exact h.poll horder

end

theorem behind_start {c : Consumer} (hstart : c.getLastSequence regionId = 0) :
    Behind config regionId ⟨[], c, []⟩ := by
  exact ⟨hstart.ge, .inl (congrArg Int.toNat hstart), fun x hx => absurd hx List.not_mem_nil⟩

variable (config regionId tie draws faults) in
/-- When a poll of an orderly history brings nothing, everything in the outbox
that is not the peer's own was delivered to it. -/
theorem delivered_of_empty_poll (hbatch : 0 < config.batchSize) (c : Consumer)
    (hstart : c.getLastSequence regionId = 0) (es : List LinkEvent)
    (horder : Along (step config regionId) (fun l e => l.Orderly config regionId e) ⟨[], c, []⟩ es)
    (hpoll : (run (step config regionId) ⟨[], c, []⟩ es).Orderly config regionId
      (.poll tie draws faults))
    (hnone : (step config regionId (run (step config regionId) ⟨[], c, []⟩ es)
      (.poll tie draws faults)).2 = some []) :
    ∀ e ∈ (run (step config regionId) ⟨[], c, []⟩ es).outbox, e.sourceRegion ≠ config.localRegion →
        e ∈ (run (step config regionId) ⟨[], c, []⟩ es).delivered := by
  have h : (run (step config regionId) ⟨[], c, []⟩ es).Behind config regionId :=
    Along.invariant (Behind config regionId) (fun l e h horder => h.step horder)
      (behind_start hstart) horder
  intro e he hpeer
  rcases poll_cases draws hpoll.1 h.nonneg with ⟨hanswer, -⟩ | ⟨hanswer, -⟩
  · rw [step, hanswer] at hnone
    cases hnone
  · rw [step, hanswer, Option.some.injEq] at hnone
    exact h.covered.complete (Orderly.firstUnwanted h hpoll) (by omega) hnone he
      (by simpa using hpeer)

def notice (region : String) (createdAt : Timestamp) : ReplicationEvent where
  id := .nil
  eventType := .regionFailover
  sourceRegion := region
  payload := { texts := [] }
  vectorClock := []
  createdAt := createdAt

def us : Consumer := ⟨⟨⟨.empty, .empty, .empty, .empty, .empty, .empty⟩, []⟩, fun _ => none⟩

def pollAt (now : Timestamp) : LinkEvent := .poll (fun _ => 0) (fun _ => { now := now }) {}

/-- An outbox with an event of the peer itself before the first one for it. -/
theorem own_first : Feed.FirstUnwanted ReplicationEvent.createdAt (forPeer ⟨"us", 100, "lww"⟩)
    [notice "us" 1, notice "eu" 2] := by
  intro x hx hleast
  rcases List.mem_pair.mp hx with rfl | rfl
  · rfl
  · exact absurd (hleast (notice "us" 1) List.mem_cons_self) (by decide)

theorem orderly_second {l : Link} (hdelivered : l.delivered = [])
    (houtbox : l.outbox = [notice "us" 1]) :
    l.Orderly ⟨"us", 100, "lww"⟩ "eu" (.record (notice "eu" 2)) := by
  refine fun _ => ⟨fun d hd => absurd (hdelivered ▸ hd) List.not_mem_nil, fun f hf hpeer => ?_⟩
  rw [houtbox, List.mem_singleton] at hf
  rw [hf] at hpeer
  exact absurd hpeer (by decide)

theorem delivered_after_own_event : notice "eu" 2 ∈ (run (step ⟨"us", 100, "lww"⟩ "eu") ⟨[], us, []⟩
      [.record (notice "us" 1), .record (notice "eu" 2), pollAt 3]).delivered := by
  refine delivered_of_empty_poll ⟨"us", 100, "lww"⟩ "eu" (fun _ => 0) (fun _ => { now := 4 }) {}
    (by decide) us rfl [.record (notice "us" 1), .record (notice "eu" 2), pollAt 3]
    ⟨fun hpeer => ?_, orderly_second rfl rfl, ⟨rfl, fun _ => own_first⟩, trivial⟩
    ⟨rfl, fun _ => own_first⟩ rfl (notice "eu" 2) (List.mem_cons_of_mem _ List.mem_cons_self)
    (by decide)
  exact absurd hpeer (by decide)

/-- The one event of an outbox is not delivered. -/
theorem first_event_undelivered :
    let l := run (step ⟨"us", 100, "lww"⟩ "eu") ⟨[], us, []⟩ [.record (notice "eu" 1)]
    l.outbox = [notice "eu" 1] ∧
      (step ⟨"us", 100, "lww"⟩ "eu" l (pollAt 3)).2 = some [] ∧
      (step ⟨"us", 100, "lww"⟩ "eu" l (pollAt 3)).1.delivered = [] := by
  exact ⟨rfl, rfl, rfl⟩

/-! ## Applied events -/

theorem applied_run (strategy localRegion : String) (r : Replica) (as : List Application) :
    (run (Replica.step strategy localRegion) r as).applied = r.applied ++
      ((trace (Replica.step strategy localRegion) r as).filter (·.2.isOk)).map (·.1.event) := by
  induction as generalizing r with
  | nil => exact (List.append_nil _).symm
  | cons a as ih =>
    rw [run, trace, ih, Replica.step]
    cases a.result strategy localRegion r.db with
    | error e => rfl
    | ok db => simp [Except.isOk, Except.toBool]

theorem event_applications (draws : Nat → Draw) (events : List ReplicationEvent) :
    (applications draws events).map Application.event = events := by
  refine List.ext_getElem ?_ ?_ <;> simp [applications]

variable (config regionId) in
/-- A poll that moves the position applies every event that it brings. -/
def AppliesBatch (l : Link) : LinkEvent → Prop
  | .record _ => True
  | .poll tie draws faults => faults.updateFails = false →
      ∀ batch ∈ l.answer config regionId tie faults,
        ∀ x ∈ trace (Replica.step config.conflictStrategy config.localRegion) l.consumer.replica
          (applications draws batch), x.2.isOk = true

theorem applied_applyEvents {c : Consumer} {events : List ReplicationEvent}
    (h : ∀ x ∈ trace (Replica.step config.conflictStrategy config.localRegion) c.replica
      (applications draws events), x.2.isOk = true) :
    (c.applyEvents config draws events).replica.applied = c.replica.applied ++ events := by
  have hevents := map_fst_trace (Replica.step config.conflictStrategy config.localRegion)
    c.replica (applications draws events)
  rw [Consumer.applyEvents, applied_run, List.filter_eq_self.mpr h]
  refine congrArg (c.replica.applied ++ ·) (Eq.trans ?_ (event_applications draws events))
  rw [← hevents, List.map_map, hevents]
  rfl

variable (config regionId) in
/-- What was applied reaches as far as the position. -/
structure Applied (l : Link) : Prop extends l.Behind config regionId where
  applied : Feed.Covered ReplicationEvent.createdAt (forPeer config) l.outbox
    l.consumer.replica.applied (l.consumer.getLastSequence regionId).toNat
  delivered : ∀ e ∈ l.consumer.replica.applied, e ∈ l.delivered

theorem Applied.poll (h : l.Applied config regionId)
    (horder : l.Orderly config regionId (.poll tie draws faults))
    (hbatch : l.AppliesBatch config regionId (.poll tie draws faults)) :
    (l.step config regionId (.poll tie draws faults)).1.Applied config regionId := by
  have hbehind := h.toBehind.poll horder
  rcases poll_cases draws horder.1 h.nonneg with ⟨-, hconsumer⟩ | ⟨hanswer, hreplica, hseq⟩
  · refine ⟨hbehind, ?_, ?_⟩
    · rw [hconsumer]
      exact h.applied
    · rw [hconsumer]
      exact fun e he => List.mem_append_left _ (h.delivered e he)
  · have hrun := applied_run config.conflictStrategy config.localRegion l.consumer.replica
      (applications draws (l.nextBatch config regionId tie))
    refine ⟨hbehind, ?_, ?_⟩
    · rw [hseq, hreplica]
      cases hupdate : faults.updateFails with
      | true =>
        rw [if_pos rfl, Int.add_zero, Consumer.applyEvents, hrun]
        exact h.applied.give _
      | false =>
        rw [if_neg Bool.false_ne_true, Int.toNat_add h.nonneg (Int.natCast_nonneg _),
          Int.toNat_natCast, applied_applyEvents (hbatch hupdate _ hanswer)]
        exact h.applied.advance (Orderly.firstUnwanted h.toBehind horder) h.distinct
    · rw [hreplica, Consumer.applyEvents, hrun]
      intro e he
      show e ∈ l.delivered ++ _
      rw [hanswer]
      rcases List.mem_append.mp he with he | he
      · exact List.mem_append_left _ (h.delivered e he)
      · obtain ⟨x, hx, rfl⟩ := List.mem_map.mp he
        have hinput := List.mem_map_of_mem (f := Prod.fst) (List.mem_of_mem_filter hx)
        rw [map_fst_trace] at hinput
        have hevent := List.mem_map_of_mem (f := Application.event) hinput
        rw [event_applications] at hevent
        exact List.mem_append_right _ hevent

theorem Applied.step (h : l.Applied config regionId) {e : LinkEvent}
    (horder : l.Orderly config regionId e) (hbatch : l.AppliesBatch config regionId e) :
    (l.step config regionId e).1.Applied config regionId := by
  cases e with
  | record e =>
    exact ⟨h.toBehind.record horder,
      h.applied.append fun hpeer d hd => (horder hpeer).1 d (h.delivered d hd), h.delivered⟩
  | poll tie draws faults => exact h.poll horder hbatch

variable (regionId l tie) in
/-- The time that the producer reads the position of the peer as. -/
def cursor : Timestamp :=
  Feed.floor ReplicationEvent.createdAt tie 0 l.outbox
    (l.consumer.getLastSequence regionId).toNat

variable (config regionId tie draws faults) in
/-- After an orderly history in which the polls that moved the position applied all of their
batches, every event for the peer up to its cursor was applied, and one that was not is in the
next batch, or that batch is full of earlier ones. -/
theorem passed_applied (c : Consumer) (hstart : c.getLastSequence regionId = 0)
    (hfresh : c.replica.applied = []) (es : List LinkEvent) (horder : Along (step config regionId)
      (fun l e => l.Orderly config regionId e ∧ l.AppliesBatch config regionId e) ⟨[], c, []⟩ es)
    (hpoll : (run (step config regionId) ⟨[], c, []⟩ es).Orderly config regionId
      (.poll tie draws faults)) :
    let l := run (step config regionId) ⟨[], c, []⟩ es
    ∀ e ∈ l.outbox, e.sourceRegion ≠ config.localRegion →
      (e.createdAt ≤ l.cursor regionId tie → e ∈ l.consumer.replica.applied) ∧
      (e ∉ l.consumer.replica.applied → ∀ batch ∈ l.answer config regionId tie faults,
        e ∈ batch ∨ (batch.length = min config.batchSize 1000 ∧
          ∀ b ∈ batch, b.createdAt ≤ e.createdAt)) := by
  intro l e he hpeer
  have hinit : Applied config regionId ⟨[], c, []⟩ := by
    refine ⟨behind_start hstart, .inl (congrArg Int.toNat hstart), fun e he => ?_⟩
    exact absurd (hfresh ▸ he) List.not_mem_nil
  have h : l.Applied config regionId :=
    Along.invariant (Applied config regionId) (fun l e h he => h.step he.1 he.2) hinit horder
  have hwanted : forPeer config e = true := by simpa using hpeer
  have hpassed := (h.applied.floor_spec tie 0 (Orderly.firstUnwanted h.toBehind hpoll)
    (List.ne_nil_of_mem he)).2 e he hwanted
  refine ⟨hpassed, fun hno batch hbatch => ?_⟩
  rcases poll_cases draws hpoll.1 h.nonneg with ⟨hanswer, -⟩ | ⟨hanswer, -⟩
  · rw [hanswer] at hbatch
    cases hbatch
  · obtain rfl := Option.some.inj (hanswer.symm.trans hbatch)
    exact Feed.above_complete tie _ he hwanted (not_le.mp fun hle => hno (hpassed hle))

/-- The event cannot be applied, and neither is the position moved: it is offered again. -/
theorem passed_applied_retry :
    let failing : LinkEvent :=
      .poll (fun _ => 0) (fun _ => { now := 3, fault := some (.payload "down") })
        { updateFails := true }
    let l := run (step ⟨"us", 100, "lww"⟩ "eu") ⟨[], us, []⟩
      [.record (notice "us" 1), .record (notice "eu" 2), failing]
    notice "eu" 2 ∉ l.consumer.replica.applied ∧
      l.answer ⟨"us", 100, "lww"⟩ "eu" (fun _ => 0) {} = some [notice "eu" 2] ∧
      ∀ batch ∈ l.answer ⟨"us", 100, "lww"⟩ "eu" (fun _ => 0) {}, notice "eu" 2 ∈ batch ∨
        (batch.length = 100 ∧ ∀ b ∈ batch, b.createdAt ≤ 2) := by
  intro failing l
  have hno : notice "eu" 2 ∉ l.consumer.replica.applied := List.not_mem_nil
  exact ⟨hno, rfl, (passed_applied ⟨"us", 100, "lww"⟩ "eu" (fun _ => 0)
    (fun _ => { now := 4 }) {} us rfl rfl
    [.record (notice "us" 1), .record (notice "eu" 2), failing]
    ⟨⟨fun hpeer => absurd hpeer (by decide), trivial⟩, ⟨orderly_second rfl rfl, trivial⟩,
      ⟨⟨rfl, fun _ => own_first⟩, fun hupdate => by cases hupdate⟩, trivial⟩
    ⟨rfl, fun _ => own_first⟩ (notice "eu" 2) (List.mem_cons_of_mem _ List.mem_cons_self)
    (by decide)).2 hno⟩

/-- A batch of one event, which fails: the cursor is at it, and the next poll does not offer
it. -/
theorem failed_event_passed :
    let l := run (step ⟨"us", 100, "lww"⟩ "eu") ⟨[], us, []⟩
      [.record (notice "us" 1), .record (notice "eu" 2),
        .poll (fun _ => 0) (fun _ => { now := 3, fault := some (.payload "down") }) {}]
    l.delivered = [notice "eu" 2] ∧ l.consumer.replica.applied = [] ∧
      l.cursor "eu" (fun _ => 0) = 2 ∧
      (step ⟨"us", 100, "lww"⟩ "eu" l (pollAt 4)).2 = some [] := by
  exact ⟨rfl, rfl, rfl, rfl⟩

end Link

end WslVault.ReplicationAgent
