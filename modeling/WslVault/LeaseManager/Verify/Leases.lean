import WslVault.LeaseManager.Service

/-!
# What a turn does to the leases

Both backends keep records that can be looked up by id (`Backend.lease`), and each call on a
store changes one of them (`Backend.Replaces`).
-/

namespace WslVault.LeaseManager

open Core Base Storage
open IdentityService (Moment)

theorem seconds_mono {a b : Int} (h : a ≤ b) : seconds a ≤ seconds b :=
  Int.mul_le_mul_of_nonneg_right h (by decide)

variable {b b' : Backend} {l r record : LeaseRecord} {now expiresAt : Timestamp}
  {incrementSecs : Int} {id : Uuid} {rows rows' : LeaseTable}

namespace LeaseRecord

theorem state_ofCoreLease {l : Lease} :
    (ofCoreLease l).state = .active ↔ l.state = .active ∨ l.state = .renewing := by
  cases h : l.state <;> simp [ofCoreLease, h]

def cap (r : LeaseRecord) : Timestamp := r.issuedAt + seconds r.maxTtlSeconds

theorem eq_of_later {t t' : Timestamp} {n : Int} (h : later t n = some t') :
    t' = t + seconds n := by
  unfold later at h
  split at h
  · exact (Option.some.inj h).symm
  · cases h

theorem of_renewal (h : r.renewal now incrementSecs = .ok expiresAt) :
    r.state = .active ∧ expiresAt ≤ r.cap := by
  simp only [renewal, bind_eq_ok, refuseIf_eq_ok, okOr_eq_ok, pure_eq_ok] at h
  obtain ⟨_, hstate, _, -, longest, hlongest, _, -, rfl⟩ := h
  exact ⟨not_not.mp hstate, eq_of_later hlongest ▸ min_le_right _ _⟩

structure StoredAs (r stored : LeaseRecord) : Prop where
  state : stored.state = .active ↔ r.state = .active
  expiresAt : stored.expiresAt = r.expiresAt
  cap : r.cap ≤ stored.cap

theorem toCoreLease_eq_ok {l : Lease} (h : r.toCoreLease = .ok l) :
    l.id = r.id ∧ r.StoredAs (ofCoreLease { l with revokedAt := none }) := by
  unfold toCoreLease at h
  split at h
  · cases h
  · cases h
    refine ⟨rfl, ?_, rfl, ?_⟩
    · cases hstate : r.state <;> simp [ofCoreLease]
    · exact Int.add_le_add_left (seconds_mono (Int.self_le_toNat _)) _

structure Follows (l l' : LeaseRecord) : Prop where
  targetType : l'.targetType = l.targetType
  targetData : l'.targetData = l.targetData
  cap : l'.cap = l.cap
  revoked : l.state = .revoked → l'.state = .revoked
  ended : l.state ≠ .active → l'.state ≠ .active

theorem Follows.refl (l : LeaseRecord) : l.Follows l := ⟨rfl, rfl, rfl, fun h => h, fun h => h⟩

end LeaseRecord

namespace Backend

def lease (b : Backend) (id : Uuid) : Option LeaseRecord := b.getLease none id

@[simp] theorem lease_memory (leases : InMemoryLeaseStore) (id : Uuid) :
    (memory leases).lease id = leases.get? id := rfl

variable {fault : Option String} {l' : LeaseRecord} {tenants : List Uuid}

theorem getLease_eq_some (h : b.getLease fault id = some r) :
    b.lease id = some r := by
  cases b with
  | memory leases => exact h
  | database tenants rows =>
    cases fault with
    | none => exact h
    | some reason =>
      simp [getLease, PgLeaseBackend.getLease, LeaseStore.getLease, LeaseStore.faulted,
        error_bind, Except.toOption] at h

@[simp] theorem lease_database (tenants : List Uuid) (rows : LeaseTable) (id : Uuid) :
    (database tenants rows).lease id = (rows.get? id).map .ofCoreLease := by
  simp only [lease, getLease, PgLeaseBackend.getLease, LeaseStore.getLease, LeaseStore.faulted,
    ok_bind]
  cases rows.get? id <;> rfl

theorem id_of_lease (h : b.lease id = some r) : r.id = id := by
  cases b with
  | memory leases => exact (Table.get?_eq_some.mp h).2
  | database tenants rows =>
    rw [lease_database] at h
    obtain ⟨l, hl, rfl⟩ := Option.map_eq_some_iff.mp h
    exact (Table.get?_eq_some.mp hl).2

structure Replaces (b b' : Backend) (id : Uuid) (l l' : LeaseRecord) : Prop where
  found : b.lease id = some l
  after : ∀ j, b'.lease j = if j = id then some l' else b.lease j

theorem Replaces.of_ne {j : Uuid} (h : Replaces b b' id l l') (hj : j ≠ id) :
    b'.lease j = b.lease j := by
  rw [h.after, if_neg hj]

theorem Replaces.self (h : Replaces b b' id l l') : b'.lease id = some l' := by
  rw [h.after, if_pos rfl]

theorem replaces_setLease {leases : InMemoryLeaseStore} (hl : leases.get? id = some l)
    (set : LeaseRecord → LeaseRecord) (hset : ∀ r, (set r).id = r.id) :
    Replaces (memory leases) (memory (leases.setLease id set hset)) id l (set l) where
  found := hl
  after := by
    intro j
    rw [lease_memory, InMemoryLeaseStore.setLease, Table.get?_update]
    split
    · next hj =>
      subst hj
      rw [hl, Option.map_some, if_pos (beq_iff_eq.mpr (Table.get?_eq_some.mp hl).2)]
    · next hj =>
      cases hget : leases.get? j with
      | none => simp [hget]
      | some r =>
        have hr : r.id ≠ id := fun h => hj ((Table.get?_eq_some.mp hget).2.symm.trans h)
        simp [hget, hr]

theorem replaces_update {l : Lease}
    (hl : rows.get? id = some l) {holds : Lease → Bool} (hholds : holds l = true)
    (set : Lease → Lease) (hset : ∀ l, (set l).id = l.id) : Replaces (database tenants rows)
      (database tenants (rows.update (fun l => l.id == id && holds l) set hset)) id
      (.ofCoreLease l) (.ofCoreLease (set l)) where
  found := by rw [lease_database, hl, Option.map_some]
  after := by
    intro j
    rw [lease_database, lease_database, Table.get?_update]
    split
    · next hj =>
      subst hj
      have hid : l.id = j := (Table.get?_eq_some.mp hl).2
      simp [hl, hid, hholds]
    · next hj =>
      cases hget : rows.get? j with
      | none => simp
      | some r =>
        have hr : r.id ≠ id := fun h => hj ((Table.get?_eq_some.mp hget).2.symm.trans h)
        simp [hr]

/-! ## The calls on a store -/

theorem createLease_eq_ok
    {lease : Lease} (h : LeaseStore.createLease tenants rows fault lease = .ok rows') :
    rows.insert? { lease with revokedAt := none } = some rows' := by
  simp only [LeaseStore.createLease, bind_eq_ok] at h
  obtain ⟨_, -, h⟩ := h
  split at h
  · cases h
  · split at h
    · cases h
    · next hinsert =>
      split at h
      · rw [pure_eq_ok] at h
        subst h
        exact hinsert
      · cases h

theorem updateOne_eq_ok (tenants : List Uuid) {holds : Lease → Bool}
    {set : Lease → Lease} {hset : ∀ l, (set l).id = l.id}
    (h : LeaseStore.updateOne rows fault id holds set hset = .ok rows') : ∃ l, holds l = true ∧
      Replaces (database tenants rows) (database tenants rows') id (.ofCoreLease l)
        (.ofCoreLease (set l)) := by
  simp only [LeaseStore.updateOne, bind_eq_ok] at h
  obtain ⟨_, -, h⟩ := h
  split at h
  · next hany =>
    obtain ⟨l, hl, hmatch⟩ := List.any_eq_true.mp hany
    obtain ⟨hid, hholds⟩ := Bool.and_eq_true_iff.mp hmatch
    rw [pure_eq_ok] at h
    subst h
    exact ⟨l, hholds, replaces_update (Table.get?_eq_some.mpr ⟨hl, eq_of_beq hid⟩) hholds set hset⟩
  · cases h

theorem insertLease_eq_ok (h : b.insertLease fault record = .ok b') :
    ∃ stored, record.StoredAs stored ∧
      ∀ j, b'.lease j = if j = record.id then some stored else b.lease j := by
  cases b with
  | memory leases =>
    simp only [insertLease, Except.ok.injEq] at h
    subst h
    refine ⟨record, ⟨Iff.rfl, rfl, le_rfl⟩, fun j => ?_⟩
    rw [lease_memory, lease_memory, InMemoryLeaseStore.insertLease]
    split
    · next hinsert =>
      rw [Table.get?_insert? hinsert]
      simp only [eq_comm]
    · next hinsert =>
      obtain ⟨old, hold, hid⟩ := Table.insert?_eq_none.mp hinsert
      have hget : leases.get? record.id = some old := Table.get?_eq_some.mpr ⟨hold, hid⟩
      have hreplace := replaces_setLease hget (fun r => { record with id := r.id }) fun _ => rfl
      have hrecord : { record with id := old.id } = record := by rw [hid]
      rw [← hrecord]
      have hafter := hreplace.after j
      rw [hid] at hafter ⊢
      exact hafter
  | database tenants rows =>
    simp only [insertLease, map_eq_ok, PgLeaseBackend.insertLease, bind_eq_ok,
      mapError_eq_ok_iff] at h
    obtain ⟨rows', ⟨lease, hlease, hcreate⟩, rfl⟩ := h
    have hinsert := createLease_eq_ok hcreate
    obtain ⟨hid, hstored⟩ := LeaseRecord.toCoreLease_eq_ok hlease
    refine ⟨.ofCoreLease { lease with revokedAt := none }, hstored, fun j => ?_⟩
    rw [lease_database, lease_database, Table.get?_insert? hinsert, ← hid]
    simp only [eq_comm (a := j)]
    split
    · rfl
    · rfl

theorem revokeLease_eq_ok (h : b.revokeLease fault now id = .ok b') :
    ∃ l, Replaces b b' id l (l.revoked now) := by
  cases b with
  | memory leases =>
    simp only [revokeLease, map_eq_ok, InMemoryLeaseStore.revokeLease, bind_eq_ok, okOr_eq_ok,
      pure_eq_ok] at h
    obtain ⟨_, ⟨l, hl, rfl⟩, rfl⟩ := h
    exact ⟨l, replaces_setLease hl _ _⟩
  | database tenants rows =>
    simp only [revokeLease, map_eq_ok, PgLeaseBackend.revokeLease, mapError_eq_ok_iff] at h
    obtain ⟨rows', hrows, rfl⟩ := h
    obtain ⟨l, -, hreplace⟩ := updateOne_eq_ok tenants hrows
    exact ⟨_, hreplace⟩

theorem markExpired_eq_ok (h : b.markExpired fault id = .ok b') :
    (∀ j, b'.lease j = b.lease j) ∨ ∃ l, l.state = .active ∧ Replaces b b' id l l.expired := by
  cases b with
  | memory leases =>
    simp only [markExpired, map_eq_ok, InMemoryLeaseStore.markExpired, bind_eq_ok, okOr_eq_ok] at h
    obtain ⟨_, ⟨l, hl, h⟩, rfl⟩ := h
    split at h
    · next hstate =>
      rw [pure_eq_ok] at h
      subst h
      exact .inr ⟨l, hstate, replaces_setLease hl _ _⟩
    · rw [pure_eq_ok] at h
      subst h
      exact .inl fun _ => rfl
  | database tenants rows =>
    simp only [markExpired, map_eq_ok, PgLeaseBackend.markExpired, mapError_eq_ok_iff,
      LeaseStore.markLeaseExpired, bind_eq_ok, pure_eq_ok] at h
    obtain ⟨_, ⟨_, -, rfl⟩, rfl⟩ := h
    by_cases hactive : ∃ l, rows.get? id = some l ∧ l.state = .active
    · obtain ⟨l, hl, hstate⟩ := hactive
      refine .inr ⟨.ofCoreLease l, LeaseRecord.state_ofCoreLease.mpr (.inl hstate), ?_⟩
      have hholds : (l.state == Storage.LeaseState.active) = true := beq_iff_eq.mpr hstate
      exact replaces_update hl hholds _ _
    · refine .inl fun j => ?_
      rw [lease_database, lease_database, Table.get?_update]
      cases hget : rows.get? j with
      | none => rfl
      | some r =>
        have hr : ¬ (r.id = id ∧ r.state = .active) := by
          rintro ⟨hid, hstate⟩
          have hj : r.id = j := (Table.get?_eq_some.mp hget).2
          exact hactive ⟨r, by rw [← hid, hj, hget], hstate⟩
        simp [hr]

theorem mem_listStaleActiveLeases {since : Timestamp}
    (h : r ∈ b.listStaleActiveLeases fault since) :
    b.lease r.id = some r ∧ r.state = .active ∧ r.expiresAt ≤ since := by
  cases b with
  | memory leases =>
    obtain ⟨hr, hdue⟩ := Table.mem_select.mp h
    simp only [Bool.and_eq_true, beq_iff_eq, decide_eq_true_eq] at hdue
    exact ⟨Table.get?_eq_some.mpr ⟨hr, rfl⟩, hdue⟩
  | database tenants rows =>
    cases fault with
    | some reason =>
      simp [listStaleActiveLeases, PgLeaseBackend.listStaleActiveLeases,
        LeaseStore.listStaleLeases, LeaseStore.faulted, Except.toOption] at h
    | none =>
      obtain ⟨l, hl, rfl⟩ := List.mem_map.mp h
      have hsorted := List.mem_of_mem_take hl
      rw [List.mem_insertionSort] at hsorted
      obtain ⟨hrow, hdue⟩ := Table.mem_select.mp hsorted
      simp only [Bool.and_eq_true, beq_iff_eq, decide_eq_true_eq] at hdue
      refine ⟨?_, LeaseRecord.state_ofCoreLease.mpr (.inl hdue.1), hdue.2.le⟩
      have hget : rows.get? l.id = some l := Table.get?_eq_some.mpr ⟨hrow, rfl⟩
      exact (lease_database tenants rows l.id).trans (by rw [hget, Option.map_some])

end Backend

theorem renewLease_eq_ok {leases leases' : InMemoryLeaseStore}
    (h : leases.renewLease now id incrementSecs = .ok (leases', record)) :
    ∃ l expiresAt, l.state = .active ∧ expiresAt ≤ l.cap ∧
      (Backend.memory leases).Replaces (.memory leases') id l
        (l.renewed expiresAt incrementSecs) := by
  simp only [InMemoryLeaseStore.renewLease, bind_eq_ok, okOr_eq_ok, pure_eq_ok] at h
  obtain ⟨l, hl, expiresAt, hrenewal, hpair⟩ := h
  cases hpair
  obtain ⟨hactive, hcap⟩ := LeaseRecord.of_renewal hrenewal
  exact ⟨l, expiresAt, hactive, hcap, Backend.replaces_setLease hl _ _⟩

theorem writeRenewal_eq_ok (tenants : List Uuid) {fault : Option String}
    (h : PgLeaseBackend.writeRenewal rows fault id expiresAt incrementSecs = .ok rows') :
    ∃ l : LeaseRecord, l.state = .active ∧
      (Backend.database tenants rows).Replaces (.database tenants rows') id l
        (l.renewed expiresAt incrementSecs.toNat) := by
  obtain ⟨l, hholds, hreplace⟩ := Backend.updateOne_eq_ok tenants (mapError_eq_ok h)
  have hstate : l.state = .active ∨ l.state = .renewing := by simpa using hholds
  refine ⟨_, LeaseRecord.state_ofCoreLease.mpr hstate, ?_⟩
  convert hreplace using 1
  rcases hstate with h | h <;> simp [LeaseRecord.ofCoreLease, LeaseRecord.renewed, h]

/-! ## Turns -/

namespace Phase

def Plain : Phase → Prop
  | start | permitted _ _ | renewing _ _ _ | renewed _ => True
  | _ => False

def planned : Phase → Option (Uuid × Timestamp)
  | renewing id expiresAt _ => some (id, expiresAt)
  | _ => none

def due : Phase → List LeaseRecord
  | sweeping due => due
  | marking record due => record :: due
  | _ => []

end Phase

namespace LeaseSystem

def renews (leases : Backend) : Request → Phase → Option Uuid
  | .renew leaseId _, .start =>
    match leases with
    | .memory _ => Uuid.parseStr leaseId
    | .database _ _ => none
  | _, .permitted id _ =>
    match leases with
    | .memory _ => some id
    | .database _ _ => none
  | _, .renewing id _ _ => some id
  | _, _ => none

/-- A renewal that is to be written keeps to the cap of its lease. -/
def Plans (sys : LeaseSystem) (phase : Phase) : Prop :=
  ∀ id expiresAt, phase.planned = some (id, expiresAt) →
    ∃ l, sys.leases.lease id = some l ∧ expiresAt ≤ l.cap

section Turn

variable (configured : Bool) (fault : Option String) (sys : LeaseSystem)

/-- All that a turn can do: from a request's phase to a system, and to the next phase if
there is one. -/
inductive Does : Request → Phase → LeaseSystem → Option Phase → Prop where
  | nothing {request phase next}
      (hnext : ∀ p ∈ next, p.Plain ∧ sys.Plans p) : Does request phase sys next
  | create {req id leases record}
      (hactive : record.state = .active) (hcap : record.expiresAt ≤ record.cap)
      (hafter : ∀ j, leases.lease j = if j = id then some record else sys.leases.lease j) :
      Does (.create req id) .start { sys with leases := leases } none
  | renew {request phase next id leases l expiresAt ttl}
      (hwhich : renews sys.leases request phase = some id) (hactive : l.state = .active)
      (hend : phase.planned = some (id, expiresAt) ∨ expiresAt ≤ l.cap)
      (hreplace : sys.leases.Replaces leases id l (l.renewed expiresAt ttl))
      (hnext : ∀ p ∈ next, p.Plain ∧ p.planned = none) :
      Does request phase { sys with leases := leases } next
  | revoke {leaseId id leases l} (hid : Uuid.parseStr leaseId = some id)
      (hreplace : sys.leases.Replaces leases id l (l.revoked sys.clock)) :
      Does (.revoke leaseId) .start { sys with leases := leases } none
  | load {tenantId leaseId r} (hread : sys.leases.lease r.id = some r)
      (hstate : r.state ≠ .revoked) :
      Does (.revokeHttp tenantId leaseId) .start sys (some (.ending r))
  | loadOther {tenantId leaseId r}
      (hread : sys.leases.lease r.id = some r) (htoken : r.tokenRevocation = none) :
      Does (.revokeHttp tenantId leaseId) .start sys (some (.told r.id))
  | tell {tenantId leaseId r sys'} (htell : sys.revokeToken configured fault r = .ok sys') :
      Does (.revokeHttp tenantId leaseId) (.ending r) sys' (some (.told r.id))
  | revokeTold {tenantId leaseId id leases l}
      (hreplace : sys.leases.Replaces leases id l (l.revoked sys.clock)) :
      Does (.revokeHttp tenantId leaseId) (.told id) { sys with leases := leases } none
  | begin : Does .sweep .start sys (some (.listing sys.clock))
  | list {since due}
      (hdue : ∀ r ∈ due, sys.leases.lease r.id = some r ∧ r.state = .active ∧ r.expiresAt ≤ since) :
      Does .sweep (.listing since) sys (some (.sweeping due))
  | skip {r due phase} (hphase : phase = .sweeping (r :: due) ∨ phase = .marking r due) :
      Does .sweep phase sys (some (.sweeping due))
  | tellDue {r due sys'} (htell : sys.revokeToken configured fault r = .ok sys') :
      Does .sweep (.sweeping (r :: due)) sys' (some (.marking r due))
  | mark {r l due leases} (hactive : l.state = .active)
      (hreplace : sys.leases.Replaces leases r.id l l.expired) :
      Does .sweep (.marking r due) { sys with leases := leases } (some (.sweeping due))
  | markNone {r due leases} (hsame : ∀ j, leases.lease j = sys.leases.lease j) :
      Does .sweep (.marking r due) { sys with leases := leases } (some (.sweeping due))
  | reap : Does .reap .start
      { sys with revocations := IdentityService.reap sys.revocations ⟨sys.clock, fault⟩ } none

def Done (request : Request) (phase : Phase) (t : ServiceTurn) : Prop :=
  t.Ensures (fun sys' next => Does configured fault sys request phase sys' (some next))
    fun sys' _ => Does configured fault sys request phase sys' none

variable {configured fault sys} {request : Request} {phase : Phase}

theorem done_finish (response : Response) :
    Done configured fault sys request phase (.finish sys response) :=
  Does.nothing (by simp)

theorem done_createLease (req : CreateLeaseRequest) (id : Uuid) :
    Done configured fault sys (.create req id) .start (sys.createLease fault req id) := by
  unfold createLease
  split
  · exact done_finish _
  · next record hrecord =>
    split
    · exact done_finish _
    · next leases hinsert =>
      simp only [newRecord, bind_eq_ok, okOr_eq_ok] at hrecord
      obtain ⟨target, -, expiresAt, hexpires, hrecord⟩ := hrecord
      cases hrecord
      obtain ⟨stored, hstored, hafter⟩ := Backend.insertLease_eq_ok hinsert
      refine Does.create (hstored.state.mpr rfl) ?_ hafter
      rw [hstored.expiresAt]
      refine le_trans ?_ hstored.cap
      have httl : (lifetimes req).2 ≤ (lifetimes req).1 := min_le_right _ _
      exact (LeaseRecord.eq_of_later hexpires).trans_le (Int.add_le_add_left (seconds_mono httl) _)

theorem done_beginRenewal (refuse : String → Response)
    (hwhich : ∀ leases, sys.leases = .memory leases → renews sys.leases request phase = some id) :
    Done configured fault sys request phase
      (sys.beginRenewal fault refuse id incrementSecs) := by
  unfold beginRenewal
  split
  · next leases hleases =>
    split
    · exact done_finish _
    · next leases' record hrenew =>
      obtain ⟨l, expiresAt, hactive, hcap, hreplace⟩ := renewLease_eq_ok hrenew
      rw [← hleases] at hreplace
      exact Does.renew (hwhich leases hleases) hactive (.inr hcap) hreplace (by simp)
  · next tenants rows hleases =>
    split
    · exact done_finish _
    · next expiresAt hcompute =>
      simp only [PgLeaseBackend.computeRenewal, bind_eq_ok, okOr_eq_ok] at hcompute
      obtain ⟨l, hget, hrenewal⟩ := hcompute
      have hl : sys.leases.lease id = some l := by
        rw [hleases]
        exact Backend.getLease_eq_some hget
      refine Does.nothing ?_
      rintro p ⟨⟩
      refine ⟨trivial, ?_⟩
      rintro _ _ ⟨⟩
      exact ⟨l, hl, (LeaseRecord.of_renewal hrenewal).2⟩

theorem done_writeRenewal (refuse : String → Response)
    (hwhich : renews sys.leases request phase = some id)
    (hplanned : phase.planned = some (id, expiresAt)) : Done configured fault sys request phase
      (sys.writeRenewal fault refuse id expiresAt incrementSecs) := by
  unfold writeRenewal
  split
  · trivial
  · next tenants rows hleases =>
    split
    · exact done_finish _
    · next rows' hwrite =>
      obtain ⟨l, hactive, hreplace⟩ := writeRenewal_eq_ok tenants hwrite
      rw [← hleases] at hreplace
      exact Does.renew hwhich hactive (.inl hplanned) hreplace
        (by simp [Phase.Plain, Phase.planned])

theorem done_refetchRenewed (refuse : String → Response) (id : Uuid) :
    Done configured fault sys request phase (sys.refetchRenewed fault refuse id) := by
  unfold refetchRenewed
  split
  · trivial
  · split
    · exact done_finish _
    · exact done_finish _

theorem done_renewLease (leaseId : String) (incrementSeconds : Int) :
    Done configured fault sys (.renew leaseId incrementSeconds) .start
      (sys.renewLease fault leaseId incrementSeconds) := by
  unfold renewLease
  split
  · exact done_finish _
  · next id hid =>
    split
    · exact done_finish _
    · refine done_beginRenewal _ fun leases hleases => ?_
      rw [hleases]
      exact hid

theorem done_renewLeaseHttp (tenantId leaseId : String) (incrementSeconds : Option Int) :
    Done configured fault sys request phase
      (sys.renewLeaseHttp fault tenantId leaseId incrementSeconds) := by
  unfold renewLeaseHttp
  split
  · exact done_finish _
  · dsimp only
    split
    · exact done_finish _
    · exact Does.nothing (by simp [Phase.Plain, Plans, Phase.planned])

theorem done_revokeLease (leaseId : String) :
    Done configured fault sys (.revoke leaseId) .start (sys.revokeLease fault leaseId) := by
  unfold revokeLease
  split
  · exact done_finish _
  · next id hid =>
    split
    · exact done_finish _
    · next leases hrevoke =>
      obtain ⟨l, hreplace⟩ := Backend.revokeLease_eq_ok hrevoke
      exact Does.revoke hid hreplace

theorem done_loadForRevocation (tenantId leaseId : String) :
    Done configured fault sys (.revokeHttp tenantId leaseId) .start
      (sys.loadForRevocation fault tenantId leaseId) := by
  unfold loadForRevocation
  split
  · exact done_finish _
  · next id record hload =>
    simp only [loadForTenant, bind_eq_ok, okOr_eq_ok, pure_eq_ok] at hload
    obtain ⟨_, -, record', hget, _, -, hpair⟩ := hload
    cases hpair
    have hread := Backend.getLease_eq_some hget
    have hid := Backend.id_of_lease hread
    subst hid
    split
    · exact done_finish _
    · next hstate =>
      split
      · exact Does.load hread hstate
      · next htoken => exact Does.loadOther hread htoken

theorem done_tellIdentity {tenantId leaseId : String} (record : LeaseRecord) :
    Done configured fault sys (.revokeHttp tenantId leaseId) (.ending record)
      (sys.tellIdentity configured fault record) := by
  unfold tellIdentity
  split
  · exact done_finish _
  · next htell => exact Does.tell htell

theorem done_revokeLeaseHttp {tenantId leaseId : String} (id : Uuid) :
    Done configured fault sys (.revokeHttp tenantId leaseId) (.told id)
      (sys.revokeLeaseHttp fault id) := by
  unfold revokeLeaseHttp
  split
  · exact done_finish _
  · next leases hrevoke =>
    obtain ⟨l, hreplace⟩ := Backend.revokeLease_eq_ok hrevoke
    exact Does.revokeTold hreplace

theorem done_sweepNext (due : List LeaseRecord) :
    Done configured fault sys .sweep (.sweeping due) (sys.sweepNext configured fault due) := by
  cases due with
  | nil => exact done_finish _
  | cons record due =>
    simp only [sweepNext]
    split
    · exact Does.skip (.inl rfl)
    · next htell => exact Does.tellDue htell

theorem done_markNext (record : LeaseRecord) (due : List LeaseRecord) :
    Done configured fault sys .sweep (.marking record due) (sys.markNext fault record due) := by
  unfold markNext
  split
  · exact Does.skip (.inr rfl)
  · next leases hmark =>
    rcases Backend.markExpired_eq_ok hmark with hsame | ⟨l, hactive, hreplace⟩
    · exact Does.markNone hsame
    · exact Does.mark hactive hreplace

theorem turn_does (request : Request) (phase : Phase) :
    Done configured fault sys request phase (sys.turn configured fault request phase) := by
  unfold turn
  split
  · exact done_createLease _ _
  · exact done_renewLease _ _
  · exact done_writeRenewal _ rfl rfl
  · exact done_refetchRenewed _ _
  · exact done_renewLeaseHttp _ _ _
  · refine done_beginRenewal _ fun leases hleases => ?_
    rw [hleases]
    rfl
  · exact done_writeRenewal _ rfl rfl
  · exact done_refetchRenewed _ _
  · exact done_revokeLease _
  · exact done_loadForRevocation _ _
  · exact done_tellIdentity _
  · exact done_revokeLeaseHttp _
  · exact Does.begin
  · exact Does.list fun r hr => Backend.mem_listStaleActiveLeases hr
  · exact done_sweepNext _
  · exact done_markNext _ _
  · exact Does.reap
  · trivial

variable {sys' : LeaseSystem} {next : Option Phase}

theorem revokeToken_eq_ok (h : sys.revokeToken configured fault record = .ok sys') :
    ∃ revocations, sys' = { sys with revocations := revocations } := by
  unfold revokeToken at h
  split at h
  · split at h
    · cases h
      exact ⟨_, rfl⟩
    · cases h
  · cases h
    exact ⟨_, rfl⟩

theorem Does.clock (hdoes : Does configured fault sys request phase sys' next) :
    sys'.clock = sys.clock := by
  cases hdoes with
  | tell htell | tellDue htell =>
    obtain ⟨revocations, rfl⟩ := revokeToken_eq_ok htell
    rfl
  | _ => rfl

theorem Does.follows (hdoes : Does configured fault sys request phase sys' next)
    (hfresh : ∀ req id, request = .create req id → sys.leases.lease id = none)
    (hl : sys.leases.lease id = some l) : ∃ l', sys'.leases.lease id = some l' ∧ l.Follows l' := by
  have hreplaced : ∀ {j : Uuid} {leases : Backend} {k k' : LeaseRecord},
      sys.leases.Replaces leases j k k' → k.Follows k' →
      ∃ l', leases.lease id = some l' ∧ l.Follows l' := by
    intro j leases k k' hreplace hfollows
    by_cases hid : id = j
    · subst hid
      cases hreplace.found.symm.trans hl
      exact ⟨k', hreplace.self, hfollows⟩
    · exact ⟨l, (hreplace.of_ne hid).trans hl, .refl l⟩
  cases hdoes with
  | nothing | load | loadOther | begin | list | skip | reap => exact ⟨l, hl, .refl l⟩
  | create _ _ hafter =>
    refine ⟨l, ?_, .refl l⟩
    rw [hafter, if_neg, hl]
    rintro rfl
    rw [hfresh _ _ rfl] at hl
    cases hl
  | renew _ hactive _ hreplace =>
    refine hreplaced hreplace ⟨rfl, rfl, rfl, fun h => ?_, fun h => absurd hactive h⟩
    rw [hactive] at h
    cases h
  | revoke _ hreplace =>
    exact hreplaced hreplace ⟨rfl, rfl, rfl, fun _ => rfl, fun _ => LeaseState.noConfusion⟩
  | revokeTold hreplace =>
    exact hreplaced hreplace ⟨rfl, rfl, rfl, fun _ => rfl, fun _ => LeaseState.noConfusion⟩
  | mark hactive hreplace =>
    refine hreplaced hreplace ⟨rfl, rfl, rfl, fun h => ?_, fun _ => LeaseState.noConfusion⟩
    rw [hactive] at h
    cases h
  | tell htell | tellDue htell =>
    obtain ⟨revocations, rfl⟩ := revokeToken_eq_ok htell
    exact ⟨l, hl, .refl l⟩
  | markNone hsame => exact ⟨l, (hsame id).trans hl, .refl l⟩

end Turn

section Step

variable {configured : Bool} {sys sys' : LeaseSystem} {others : List (Request × Phase)}
  {m : Moment} {request : Request} {phase : Phase}

theorem does_of_goOn {next : Phase}
    (h : sys.advance configured others m request phase = .goOn sys' next) :
    Does configured m.fault { sys with clock := m.now } request phase sys' (some next) := by
  have hdone : Done configured m.fault { sys with clock := m.now } request phase
      (sys.advance configured others m request phase) := turn_does request phase
  rw [h] at hdone
  exact hdone

theorem does_of_finish {reply : Response}
    (h : sys.advance configured others m request phase = .finish sys' reply) :
    Does configured m.fault { sys with clock := m.now } request phase sys' none := by
  have hdone : Done configured m.fault { sys with clock := m.now } request phase
      (sys.advance configured others m request phase) := turn_does request phase
  rw [h] at hdone
  exact hdone

/-- A step changes nothing shared or is a turn of one request. -/
theorem step_does (configured : Bool) (s : LeaseSessions)
    (e : LeaseEvent) : (step configured s e).1.db = s.db ∨
      ∃ i m request phase next, e = .resume i m ∧ s.current.lookup i = some (request, phase) ∧
        Does configured m.fault { s.db with clock := m.now } request phase
          (step configured s e).1.db next := by
  rcases Tasks.step_happens .start (advance configured) s e with ⟨-, -, hstep | ⟨i, hstep⟩⟩ |
    ⟨i, request, -, -, -, hstep⟩ |
    ⟨i, m, request, phase, sys', next, -, he, hi, hadvance, hstep⟩ |
    ⟨i, m, request, phase, sys', reply, -, he, hi, hadvance, hstep⟩
  · exact .inl (by rw [step, hstep])
  · exact .inl (by rw [step, hstep])
  · exact .inl (by rw [step, hstep])
  · refine .inr ⟨i, m, request, phase, some next, he, hi, ?_⟩
    rw [step, hstep]
    exact does_of_goOn hadvance
  · refine .inr ⟨i, m, request, phase, none, he, hi, ?_⟩
    rw [step, hstep]
    exact does_of_finish hadvance

end Step

end LeaseSystem

end WslVault.LeaseManager
