import WslVault.PolicyEngine.Verify.Evaluator
import WslVault.PolicyEngine.Verify.Stores

/-!
# When a deleted policy stays deleted

A monitor reads along with a run. A delete has *removed* a policy once its call of the store
is done, and has *revoked* it once it has answered with success; a later write of the policy
takes both back. The conditions on the steps of a run exclude four races and failures: the
task swaps in a snapshot it read before a delete that has answered meanwhile, a write reaches
the snapshot only after a delete that removed it has answered, a tenant is spelled in two
ways, and the database fails to delete a row.
-/

namespace WslVault.PolicyEngine

open Core Base

variable {store : Store} {dbOk : Bool} {t name : String} {doc : PolicyDocument} {k : PolicyKey}

structure Monitor where
  /-- Deletes in flight whose policy is out of the store, with no write of it since. -/
  removed : List (Nat × PolicyKey)
  /-- Policies a delete of which has answered with success, with no write since. -/
  revoked : List PolicyKey
  /-- Policies taken out of the store since the compilation task last read it. -/
  sinceRead : List PolicyKey

namespace Monitor

def start : Monitor := ⟨[], [], []⟩

def tracks (m : Monitor) (k : PolicyKey) : Bool :=
  m.revoked.contains k || m.removed.any (·.2 == k)

def written (m : Monitor) (k : PolicyKey) : Monitor :=
  { m with removed := m.removed.filter (·.2 != k), revoked := m.revoked.filter (· != k) }

def remove (m : Monitor) (id : Nat) (k : PolicyKey) : Monitor :=
  { m with
    removed := (id, k) :: m.removed
    sinceRead := if m.tracks k then m.sinceRead else k :: m.sinceRead }

def answered (m : Monitor) (id : Nat) : Monitor :=
  { m with
    removed := m.removed.filter (·.1 != id)
    revoked := (m.removed.filter (·.1 == id)).map (·.2) ++ m.revoked }

def read (m : Monitor) : Monitor := { m with sinceRead := [] }

/-- What the monitor notes of a step that starts in `s`. -/
def observe (m : Monitor) (s : Service) (e : Event) : Monitor :=
  match e with
  | .put _ _ t doc _ =>
    if (s.step e).2 = .pending then m.written ⟨s.store.tenantKey t, doc.name⟩ else m
  | .delete id .http t name _ =>
    if (s.step e).2 = .pending then m.remove id ⟨s.store.tenantKey t, name⟩ else m
  | .advance id _ =>
    match s.inFlight.lookup id with
    | some (.deleting t name) => m.remove id ⟨s.store.tenantKey t, name⟩
    | some (.evicting _ _) => m.answered id
    | _ => m
  | .compileRead _ => if s.building.isNone then m.read else m
  | _ => m

end Monitor

def monitored (c : Service × Monitor) (e : Event) : (Service × Monitor) × Reply :=
  (((c.1.step e).1, c.2.observe c.1 e), (c.1.step e).2)

/-- The step is none of the four the module docstring lists. -/
def Orderly (c : Service × Monitor) : Event → Prop
  | .put _ _ t _ _ => c.1.store.Canonical t
  | .delete _ _ t _ _ => c.1.store.Canonical t
  | .advance id dbOk =>
    match c.1.inFlight.lookup id with
    | some (.putting t doc) => ⟨t, doc.name⟩ ∉ c.2.revoked
    | some (.deleting _ _) => c.1.store.Deletes dbOk
    | _ => True
  | .compileSwap => ∀ k ∈ c.2.revoked, k ∉ c.2.sinceRead
  | _ => True

/-! ## What an orderly step does -/

/-- The moves of the service and its monitor, with the conditions under which
an orderly run makes them. -/
inductive Moves : Service × Monitor → Service × Monitor → Prop
  | idle (c) : Moves c c
  | write (s m id t doc dbOk) (hfree : s.inFlight.lookup id = none) (ht : s.store.Canonical t) :
    Moves (s, m)
      ({ s with
          store := s.store.putPolicy dbOk t doc
          inFlight := s.inFlight.insert id (.putting t doc) }, m.written ⟨t, doc.name⟩)
  | upsert (s m id t doc) (hput : s.inFlight.lookup id = some (.putting t doc))
      (hlive : ⟨t, doc.name⟩ ∉ m.revoked) :
    Moves (s, m)
      ({ s with
          compiled := s.compiled.upsert t doc.name doc.rules
          inFlight := s.inFlight.erase id }, m)
  | check (s m id t name) (hfree : s.inFlight.lookup id = none) (ht : s.store.Canonical t) :
    Moves (s, m) ({ s with inFlight := s.inFlight.insert id (.deleting t name) }, m)
  /-- An HTTP delete that answers 404 may still have deleted the row. -/
  | miss (s m t name dbOk) :
    Moves (s, m) ({ s with store := (s.store.deletePolicy dbOk t name).1 }, m)
  | remove (s m id t name dbOk)
      (hid : s.inFlight.lookup id = none ∨ s.inFlight.lookup id = some (.deleting t name))
      (ht : s.store.Canonical t) (hdb : s.store.Deletes dbOk) :
    Moves (s, m)
      ({ s with
          store := (s.store.deletePolicy dbOk t name).1
          inFlight := s.inFlight.insert id (.evicting t name) }, m.remove id ⟨t, name⟩)
  | evict (s m id t name) (hdel : s.inFlight.lookup id = some (.evicting t name)) : Moves (s, m)
      ({ s with
          compiled := s.compiled.remove t name
          inFlight := s.inFlight.erase id }, m.answered id)
  | read (s m dbOk) :
    Moves (s, m) ({ s with building := some (compile (s.store.getAll dbOk)) }, m.read)
  | swap (s m snapshot) (hb : s.building = some snapshot)
      (hfresh : ∀ k ∈ m.revoked, k ∉ m.sinceRead) :
    Moves (s, m) ({ s with compiled := snapshot, building := none }, m)

variable {m : Monitor} {id : Nat} {s : Service} {api : Api}

theorem moves_put (ht : s.store.Canonical t) :
    Moves (s, m) (monitored (s, m) (.put id api t doc dbOk)).1 := by
  have hkey : s.store.tenantKey t = t := ht
  cases hid : s.inFlight.lookup id with
  | some h =>
    simp only [monitored, Monitor.observe, Service.step, hid, Option.isSome_some, if_true,
      reduceCtorEq, if_false]
    exact .idle _
  | none =>
    simp only [monitored, Monitor.observe, Service.step, Service.put, hid, Option.isSome_none,
      Bool.false_eq_true, if_false]
    split
    · simp only [reduceCtorEq, if_false]
      exact .idle _
    · simp only [if_true, hkey]
      exact .write s m id t doc dbOk hid ht

theorem moves_delete (ht : s.store.Canonical t) :
    Moves (s, m) (monitored (s, m) (.delete id api t name dbOk)).1 := by
  have hkey : s.store.tenantKey t = t := ht
  cases hid : s.inFlight.lookup id with
  | some h =>
    cases api <;>
      simp only [monitored, Monitor.observe, Service.step, hid, Option.isSome_some, if_true,
        reduceCtorEq, if_false] <;>
      exact .idle _
  | none =>
    cases api with
    | grpc =>
      simp only [monitored, Monitor.observe, Service.step, Service.deleteGrpc, hid,
        Option.isSome_none, Bool.false_eq_true, if_false]
      split
      · exact .idle _
      · split
        · exact .idle _
        · exact .check s m id t name hid ht
    | http =>
      simp only [monitored, Monitor.observe, Service.step, Service.deleteHttp, hid,
        Option.isSome_none, Bool.false_eq_true, if_false, hkey]
      split
      · next store doc hdel =>
        -- only the in-memory store returns the removed document
        have hdb : s.store.Deletes dbOk := by
          cases hs : s.store with
          | memory policies => trivial
          | postgres rows =>
            rw [hs, Store.deletePolicy] at hdel
            split at hdel
            · cases hdel
            · split at hdel <;> cases hdel
        have hstore : store = (s.store.deletePolicy dbOk t name).1 := by rw [hdel]
        rw [hstore]
        exact .remove s m id t name dbOk (.inl hid) ht hdb
      · next store hdel =>
        have hstore : store = (s.store.deletePolicy dbOk t name).1 := by rw [hdel]
        rw [hstore]
        exact .miss s m t name dbOk

def Handler.tenantId : Handler → String
  | .putting t _ | .deleting t _ | .evicting t _ => t

theorem moves_advance (hcanon : ∀ h, s.inFlight.lookup id = some h → s.store.Canonical h.tenantId)
    (horderly : Orderly (s, m) (.advance id dbOk)) :
    Moves (s, m) (monitored (s, m) (.advance id dbOk)).1 := by
  simp only [Orderly] at horderly
  simp only [monitored, Monitor.observe, Service.step, Service.advance]
  cases hid : s.inFlight.lookup id with
  | none => exact .idle _
  | some h =>
    rw [hid] at horderly
    cases h with
    | putting t doc => exact .upsert s m id t doc hid horderly
    | deleting t name =>
      have ht : s.store.Canonical t := hcanon _ hid
      simp only [show s.store.tenantKey t = t from ht]
      exact .remove s m id t name dbOk (.inr hid) ht horderly
    | evicting t name => exact .evict s m id t name hid

variable {c : Service × Monitor} {k' : PolicyKey}

theorem monitored_moves
    (hcanon : ∀ id h, c.1.inFlight.lookup id = some h → c.1.store.Canonical h.tenantId)
    {e : Event} (horderly : Orderly c e) : Moves c (monitored c e).1 := by
  obtain ⟨s, m⟩ := c
  cases e with
  | put => exact moves_put horderly
  | delete => exact moves_delete horderly
  | advance id dbOk => exact moves_advance (hcanon id) horderly
  | compileRead dbOk =>
    simp only [monitored, Monitor.observe, Service.step]
    cases s.building with
    | some _ => exact .idle _
    | none => exact .read s m dbOk
  | compileSwap =>
    simp only [monitored, Monitor.observe, Service.step]
    cases hb : s.building with
    | none => exact .idle _
    | some snapshot => exact .swap s m snapshot hb horderly
  | authorize => exact .idle _

/-! ## The invariant -/

def CanonicalKeys (store : Store) (compiled : CompiledPolicies) : Prop :=
  ∀ k, compiled.lookup k ≠ none → store.Canonical k.tenantId

/-- What holds along an orderly run: keys are canonical everywhere, a tracked
policy is not stored, the snapshot being built has none that was gone when it
was read, a removed policy is about to be evicted, and a revoked one is. -/
structure Inv (c : Service × Monitor) : Prop where
  named : c.1.store.WellNamed
  tracked : ∀ k, c.2.tracks k = true → c.1.store.Canonical k.tenantId
  compiled : CanonicalKeys c.1.store c.1.compiled
  building : ∀ b, c.1.building = some b → CanonicalKeys c.1.store b
  handlers : ∀ id h, c.1.inFlight.lookup id = some h → c.1.store.Canonical h.tenantId
  gone : ∀ k, c.2.tracks k = true → c.1.store.Lacks k
  fresh : ∀ b, c.1.building = some b → ∀ k, c.2.tracks k = true → k ∉ c.2.sinceRead →
    b.lookup k = none
  evicting : ∀ id k, (id, k) ∈ c.2.removed →
    c.1.inFlight.lookup id = some (.evicting k.tenantId k.name)
  evicted : ∀ k ∈ c.2.revoked, c.1.compiled.lookup k = none

theorem Monitor.tracks_iff :
    m.tracks k = true ↔ k ∈ m.revoked ∨ ∃ id, (id, k) ∈ m.removed := by
  simp [tracks]

theorem Monitor.tracks_written : (m.written k).tracks k' = true ↔ m.tracks k' = true ∧ k' ≠ k := by
  simp only [tracks_iff, written, List.mem_filter, bne_iff_ne]
  grind

theorem Monitor.tracks_remove : (m.remove id k).tracks k' = true ↔ m.tracks k' = true ∨ k' = k := by
  simp only [tracks_iff, remove, List.mem_cons, Prod.mk.injEq]
  grind

theorem Monitor.tracks_of_answered (h : (m.answered id).tracks k = true) : m.tracks k = true := by
  simp only [tracks_iff, answered, List.mem_filter, List.mem_append, List.mem_map] at h ⊢
  rcases h with (⟨⟨i, k'⟩, ⟨hmem, -⟩, rfl⟩ | hrev) | ⟨i, hmem, -⟩
  · exact .inr ⟨i, hmem⟩
  · exact .inl hrev
  · exact .inr ⟨i, hmem⟩

namespace Inv

variable {s : Service} {m : Monitor} {id : Nat}

section Steps

variable (h : Inv (s, m))

include h

theorem ne_of_removed (id : Nat)
    (hid : ∀ t name, s.inFlight.lookup id ≠ some (.evicting t name)) {id' : Nat}
    (hmem : (id', k) ∈ m.removed) : id' ≠ id := by
  rintro rfl
  exact hid _ _ (h.evicting _ _ hmem)

theorem handlers_insert (hd : Handler) (ht : s.store.Canonical hd.tenantId)
    (id' : Nat) (h' : Handler) (hl : (s.inFlight.insert id hd).lookup id' = some h') :
    s.store.Canonical h'.tenantId :=
  forall_lookup_insert h.handlers ht id' h' hl

theorem handlers_erase (id' : Nat) (h' : Handler)
    (hl : (s.inFlight.erase id).lookup id' = some h') : s.store.Canonical h'.tenantId :=
  h.handlers id' h' (lookup_of_lookup_erase hl).2

theorem write (hfree : s.inFlight.lookup id = none) (ht : s.store.Canonical t) :
    Inv ({ s with
      store := s.store.putPolicy dbOk t doc
      inFlight := s.inFlight.insert id (.putting t doc) }, m.written ⟨t, doc.name⟩) where
  named := h.named.putPolicy dbOk t doc
  tracked k hk := by
    rw [Store.canonical_putPolicy]
    exact h.tracked k (Monitor.tracks_written.mp hk).1
  compiled k hk := by
    rw [Store.canonical_putPolicy]
    exact h.compiled k hk
  building b hb k hk := by
    rw [Store.canonical_putPolicy]
    exact h.building b hb k hk
  handlers id' h' hl := by
    rw [Store.canonical_putPolicy]
    exact h.handlers_insert (.putting t doc) ht id' h' hl
  gone k hk := by
    obtain ⟨hk, hne⟩ := Monitor.tracks_written.mp hk
    exact (h.gone k hk).putPolicy (h.tracked k hk) ht hne dbOk
  fresh b hb k hk hnew := h.fresh b hb k (Monitor.tracks_written.mp hk).1 hnew
  evicting id' k hmem := by
    have hmem := (List.mem_filter.mp hmem).1
    have hne := h.ne_of_removed id (by simp [hfree]) hmem
    exact (AList.lookup_insert_ne hne).trans (h.evicting id' k hmem)
  evicted k hk := h.evicted k (List.mem_filter.mp hk).1

theorem upsert
    (hput : s.inFlight.lookup id = some (.putting t doc)) (hlive : ⟨t, doc.name⟩ ∉ m.revoked) :
    Inv ({ s with
      compiled := s.compiled.upsert t doc.name doc.rules
      inFlight := s.inFlight.erase id }, m) where
  named := h.named
  tracked := h.tracked
  compiled k hk := by
    rw [CompiledPolicies.upsert, lookup_insert_eq] at hk
    split at hk
    · next heq =>
      rw [heq]
      exact h.handlers id _ hput
    · exact h.compiled k hk
  building := h.building
  handlers := h.handlers_erase
  gone := h.gone
  fresh := h.fresh
  evicting id' k hmem := by
    have hne := h.ne_of_removed id (by simp [hput]) hmem
    exact (AList.lookup_erase_ne hne).trans (h.evicting id' k hmem)
  evicted k hk := by
    have hne : k ≠ ⟨t, doc.name⟩ := fun heq => hlive (heq ▸ hk)
    exact (AList.lookup_insert_ne hne).trans (h.evicted k hk)

theorem check (hfree : s.inFlight.lookup id = none) (ht : s.store.Canonical t) :
    Inv ({ s with inFlight := s.inFlight.insert id (.deleting t name) }, m) where
  named := h.named
  tracked := h.tracked
  compiled := h.compiled
  building := h.building
  handlers := h.handlers_insert (.deleting t name) ht
  gone := h.gone
  fresh := h.fresh
  evicting id' k hmem := by
    have hne := h.ne_of_removed id (by simp [hfree]) hmem
    exact (AList.lookup_insert_ne hne).trans (h.evicting id' k hmem)
  evicted := h.evicted

theorem miss (t name : String) (dbOk : Bool) :
    Inv ({ s with store := (s.store.deletePolicy dbOk t name).1 }, m) where
  named := h.named.deletePolicy dbOk t name
  tracked k hk := Store.canonical_deletePolicy.mpr (h.tracked k hk)
  compiled k hk := Store.canonical_deletePolicy.mpr (h.compiled k hk)
  building b hb k hk := Store.canonical_deletePolicy.mpr (h.building b hb k hk)
  handlers id' h' hl := Store.canonical_deletePolicy.mpr (h.handlers id' h' hl)
  gone k hk := (h.gone k hk).deletePolicy dbOk t name
  fresh := h.fresh
  evicting := h.evicting
  evicted := h.evicted

theorem remove (hid : s.inFlight.lookup id = none ∨ s.inFlight.lookup id = some (.deleting t name))
    (ht : s.store.Canonical t) (hdb : s.store.Deletes dbOk) : Inv ({ s with
      store := (s.store.deletePolicy dbOk t name).1
      inFlight := s.inFlight.insert id (.evicting t name) }, m.remove id ⟨t, name⟩) where
  named := h.named.deletePolicy dbOk t name
  tracked k hk := by
    rw [Store.canonical_deletePolicy]
    rcases Monitor.tracks_remove.mp hk with hk | rfl
    · exact h.tracked k hk
    · exact ht
  compiled k hk := Store.canonical_deletePolicy.mpr (h.compiled k hk)
  building b hb k hk := Store.canonical_deletePolicy.mpr (h.building b hb k hk)
  handlers id' h' hl :=
    Store.canonical_deletePolicy.mpr (h.handlers_insert (.evicting t name) ht id' h' hl)
  gone k hk := by
    rcases Monitor.tracks_remove.mp hk with hk | rfl
    · exact (h.gone k hk).deletePolicy dbOk t name
    · exact Store.lacks_deletePolicy_self hdb t name
  fresh b hb k hk hnew := by
    simp only [Monitor.remove] at hnew
    split at hnew
    · next htr =>
      rcases Monitor.tracks_remove.mp hk with hk | rfl
      · exact h.fresh b hb k hk hnew
      · exact h.fresh b hb _ htr hnew
    · rw [List.mem_cons, not_or] at hnew
      rcases Monitor.tracks_remove.mp hk with hk | rfl
      · exact h.fresh b hb k hk hnew.2
      · exact absurd rfl hnew.1
  evicting id' k hmem := by
    rcases List.mem_cons.mp hmem with heq | hmem
    · cases heq
      exact AList.lookup_insert _
    · have hne := h.ne_of_removed id (by rcases hid with hid | hid <;> simp [hid]) hmem
      exact (AList.lookup_insert_ne hne).trans (h.evicting id' k hmem)
  evicted := h.evicted

theorem evict (hdel : s.inFlight.lookup id = some (.evicting t name)) :
    Inv ({ s with
      compiled := s.compiled.remove t name
      inFlight := s.inFlight.erase id }, m.answered id) where
  named := h.named
  tracked k hk := h.tracked k (Monitor.tracks_of_answered hk)
  compiled k hk := h.compiled k fun hnone => hk (lookup_erase_eq_none hnone _)
  building := h.building
  handlers := h.handlers_erase
  gone k hk := h.gone k (Monitor.tracks_of_answered hk)
  fresh b hb k hk hnew := h.fresh b hb k (Monitor.tracks_of_answered hk) hnew
  evicting id' k hmem := by
    obtain ⟨hmem, hne⟩ := List.mem_filter.mp hmem
    exact (AList.lookup_erase_ne (by simpa using hne)).trans (h.evicting id' k hmem)
  evicted k hk := by
    rcases List.mem_append.mp hk with hk | hk
    · obtain ⟨⟨i, k'⟩, hmem, rfl⟩ := List.mem_map.mp hk
      obtain ⟨hremoved, hi⟩ := List.mem_filter.mp hmem
      have hi : i = id := by simpa using hi
      subst hi
      -- the handler evicts exactly the policy it removed
      have hev := (h.evicting i k' hremoved).symm.trans hdel
      cases hev
      exact AList.lookup_erase _ _
    · exact lookup_erase_eq_none (h.evicted k hk) _

theorem read (dbOk : Bool) :
    Inv ({ s with building := some (compile (s.store.getAll dbOk)) }, m.read) where
  named := h.named
  tracked := h.tracked
  compiled := h.compiled
  building b hb k hk := by
    cases hb
    exact (compile_getAll h.named hk).1
  handlers := h.handlers
  gone := h.gone
  fresh b hb k hk _ := by
    cases hb
    by_contra hne
    exact (compile_getAll h.named hne).2 (h.gone k hk)
  evicting := h.evicting
  evicted := h.evicted

theorem swap {snapshot : CompiledPolicies} (hb : s.building = some snapshot)
    (hfresh : ∀ k ∈ m.revoked, k ∉ m.sinceRead) :
    Inv ({ s with compiled := snapshot, building := none }, m) where
  named := h.named
  tracked := h.tracked
  compiled := h.building snapshot hb
  building b hb' := by cases hb'
  handlers := h.handlers
  gone := h.gone
  fresh b hb' := by cases hb'
  evicting := h.evicting
  evicted k hk :=
    h.fresh snapshot hb k (Monitor.tracks_iff.mpr (.inl hk)) (hfresh k hk)

end Steps

theorem moves {c' : Service × Monitor} (h : Inv c) (hmove : Moves c c') : Inv c' := by
  cases hmove with
  | idle => exact h
  | write s m id t doc dbOk hfree ht => exact h.write hfree ht
  | upsert s m id t doc hput hlive => exact h.upsert hput hlive
  | check s m id t name hfree ht => exact h.check hfree ht
  | miss s m t name dbOk => exact h.miss t name dbOk
  | remove s m id t name dbOk hid ht hdb => exact h.remove hid ht hdb
  | evict s m id t name hdel => exact h.evict hdel
  | read s m dbOk => exact h.read dbOk
  | swap s m snapshot hb hfresh => exact h.swap hb hfresh

theorem start (hnamed : store.WellNamed) (dbOk : Bool) :
    Inv (Service.start store dbOk, Monitor.start) where
  named := hnamed
  tracked k hk := by simp [Monitor.tracks, Monitor.start] at hk
  compiled k hk := (compile_getAll hnamed hk).1
  building b hb := by cases hb
  handlers id h hl := by simp [Service.start] at hl
  gone k hk := by simp [Monitor.tracks, Monitor.start] at hk
  fresh b hb := by cases hb
  evicting id k hmem := absurd hmem List.not_mem_nil
  evicted k hk := absurd hk List.not_mem_nil

end Inv

/-- In an orderly run no revoked policy is in the snapshot, under whatever
spelling of its tenant. -/
theorem Inv.lookup_revoked (h : Inv c) (hrev : ⟨c.1.store.tenantKey t, name⟩ ∈ c.2.revoked) :
    c.1.compiled.lookup ⟨t, name⟩ = none := by
  by_contra hne
  have ht : c.1.store.tenantKey t = t := h.compiled _ hne
  rw [ht] at hrev
  exact hne (h.evicted _ hrev)

/-- The names a decision may rest on: those that are not revoked. -/
def Monitor.unrevoked (m : Monitor) (store : Store) (tenantId : String) (policies : List String) :
    List String :=
  policies.filter fun name => !m.revoked.contains ⟨store.tenantKey tenantId, name⟩

/-- After every orderly run, every request is decided as if it did not name
the policies that were deleted and not written again. -/
theorem authorize_ignores_revoked {store : Store} (hnamed : store.WellNamed) {dbOk : Bool}
    {events : List Event}
    (horderly : Along monitored Orderly (Service.start store dbOk, Monitor.start) events)
    (api : Api) (tenantId : String) (policies : List String) (action resource : String) :
    let c := run monitored (Service.start store dbOk, Monitor.start) events
    (c.1.step (.authorize api tenantId policies action resource)).2 =
      (c.1.step (.authorize api tenantId
        (c.2.unrevoked c.1.store tenantId policies) action resource)).2 := by
  intro c
  have hinv : Inv c := horderly.invariant Inv
    (fun c e h ho => h.moves (monitored_moves h.handlers ho)) (Inv.start hnamed dbOk)
  have hsame : evaluate c.1.compiled tenantId (c.2.unrevoked c.1.store tenantId policies)
      action resource = evaluate c.1.compiled tenantId policies action resource := by
    have hnone : ∀ name ∈ policies, (!c.2.revoked.contains ⟨c.1.store.tenantKey tenantId, name⟩) =
        false → c.1.compiled.lookup ⟨tenantId, name⟩ = none :=
      fun name _ hrev => hinv.lookup_revoked (by simpa using hrev)
    simp only [evaluate, Monitor.unrevoked, scanPolicies_filter hnone]
  simp only [Service.step, Service.authorize, hsame]

def readerPolicy : PolicyDocument := ⟨"reader", [⟨["secret/*"], {.read}⟩]⟩

def deleteThenCompile : List Event :=
  [.put 0 .http "t" readerPolicy true, .advance 0 true, .delete 1 .http "t" "reader" true,
    .advance 1 true, .compileRead true, .compileSwap]

theorem authorize_ignores_revoked_after_delete :
    let c := run monitored (Service.start (.memory ∅) true, Monitor.start) deleteThenCompile
    (c.1.step (.authorize .http "t" ["reader"] "secret:read" "secret/db")).2 =
      (c.1.step (.authorize .http "t" (c.2.unrevoked c.1.store "t" ["reader"]) "secret:read"
        "secret/db")).2 := by
  refine authorize_ignores_revoked Store.wellNamed_empty ?_ .http "t" ["reader"] "secret:read" _
  exact ⟨rfl, List.not_mem_nil, rfl, trivial, trivial, fun _ _ => List.not_mem_nil, trivial⟩

/-- The task reads all policies, a delete runs to its answer, the task swaps
in what it read: the deleted policy is back in force. -/
theorem authorize_allows_revoked_after_swap :
    let events : List Event := [.put 0 .http "t" readerPolicy true, .advance 0 true,
      .compileRead true, .delete 1 .http "t" "reader" true, .advance 1 true, .compileSwap]
    let c := run monitored (Service.start (.memory ∅) true, Monitor.start) events
    (trace monitored (Service.start (.memory ∅) true, Monitor.start) events).map (·.2) =
      [.pending, .stored, .background, .pending, .deleted, .background] ∧
    c.2.revoked = [⟨"t", "reader"⟩] ∧
    (c.1.step (.authorize .http "t" ["reader"] "secret:read" "secret/db")).2 = .decided .allow ∧
    (c.1.step (.authorize .http "t" (c.2.unrevoked c.1.store "t" ["reader"]) "secret:read"
      "secret/db")).2 ≠ .decided .allow := by
  refine ⟨by decide +kernel, by decide +kernel, by decide +kernel, by decide +kernel⟩

end WslVault.PolicyEngine
