import WslVault.AuditService.PgStore
import WslVault.AuditService.Verify.Chain

/-!
# What the check of a chain tells about removed records

What is left of a chain shows a break exactly if a record that was removed lies between two
that are left; a chain that has lost its first records, or its last, passes.
-/

namespace WslVault.AuditService

open Core Base Storage Storage.AuditStore

variable {rows : List AuditRow} {tenantId : Uuid}

theorem records_filter (keep : AuditRow → Bool) :
    records (rows.filter keep) tenantId = (records rows tenantId).filter keep := by
  rw [records, records, List.filter_filter, List.filter_filter]
  exact List.filter_congr fun row _ => Bool.and_comm _ _

def RemovedBetween (keep : AuditRow → Bool) (es : List AuditRow) : Prop :=
  ∃ i k j, [i, k, j].Sublist es ∧ keep i = true ∧ keep k = false ∧ keep j = true

section Links

variable (h : Links (records rows tenantId)) (keep : AuditRow → Bool)

include h

theorem ordered_filter :
    ordered (rows.filter keep) tenantId = (records rows tenantId).filter keep := by
  have hsorted := List.Pairwise.sublist (List.filter_sublist (p := keep)) h.pairwise
  rw [← records_filter] at hsorted ⊢
  exact hsorted.insertionSort_eq

/-- Two records of a chain break it only if numbers are missing between them. -/
theorem breakAt_eq_none_iff {a b : AuditRow}
    (ha : a ∈ records rows tenantId) (hb : b ∈ records rows tenantId) :
    breakAt a b = none ↔ num b = num a + 1 := by
  unfold breakAt
  by_cases hnext : num b = num a + 1
  · have hprev := h.prev_eq ha hb hnext
    simp [hnext, hprev]
  · simp [hnext]

theorem auditChainBreaks_eq_nil_iff : auditChainBreaks (rows.filter keep) tenantId = [] ↔
      ∀ p ∈ Chain.neighbours ((records rows tenantId).filter keep), num p.2 = num p.1 + 1 := by
  rw [auditChainBreaks, ordered_filter h, List.filterMap_eq_nil_iff]
  refine forall₂_congr fun p hp => ?_
  obtain ⟨ha, hb⟩ := Chain.mem_of_mem_neighbours hp
  exact breakAt_eq_none_iff h (List.mem_of_mem_filter ha) (List.mem_of_mem_filter hb)

theorem auditChainBreaks_ne_nil_iff : auditChainBreaks (rows.filter keep) tenantId ≠ [] ↔
      RemovedBetween keep (records rows tenantId) := by
  rw [Ne, auditChainBreaks_eq_nil_iff h, RemovedBetween, ← h.gap_iff keep]
  push Not
  rfl

theorem auditChainBreaks_eq_nil : auditChainBreaks rows tenantId = [] := by
  rw [auditChainBreaks, ordered_eq h, List.filterMap_eq_nil_iff]
  intro p hp
  obtain ⟨ha, hb⟩ := Chain.mem_of_mem_neighbours hp
  exact (breakAt_eq_none_iff h ha hb).mpr (h.no_gap hp)

end Links

theorem chainBreaks_eq_ok {text : String} (h : Uuid.parseStr text = some tenantId) :
    PgAuditBackend.chainBreaks rows text none = .ok (auditChainBreaks rows tenantId) := by
  simp only [PgAuditBackend.chainBreaks, PgAuditBackend.queried, h, Option.map_none]

/-- For every chain that appends have written: untouched it shows no break, and when the
records that are not kept are removed, the check reports a break exactly if one of them lies
between two that are left. -/
theorem removal_detected_iff (pg : PgTypes) (hashtext : String → Int) (h : Chained rows)
    (events : List Event) (text : String) (htext : Uuid.parseStr text = some tenantId) :
    PgAuditBackend.chainBreaks (run (step pg hashtext) (Sessions.idle rows) events).db text none =
      .ok [] ∧
    ∀ keep : AuditRow → Bool, (∃ breaks, breaks ≠ [] ∧ PgAuditBackend.chainBreaks
          ((run (step pg hashtext) (Sessions.idle rows) events).db.filter keep) text none =
            .ok breaks) ↔
      RemovedBetween keep
        (records (run (step pg hashtext) (Sessions.idle rows) events).db tenantId) := by
  have hlinks := (chained_run pg hashtext h events).linked tenantId
  constructor
  · rw [chainBreaks_eq_ok htext, auditChainBreaks_eq_nil hlinks]
  · intro keep
    rw [chainBreaks_eq_ok htext, ← auditChainBreaks_ne_nil_iff hlinks keep]
    constructor
    · rintro ⟨breaks, hne, hbreaks⟩
      cases hbreaks
      exact hne
    · exact fun hne => ⟨_, hne, rfl⟩

def threeLogins : List Event :=
  (List.replicate 3 (.arrive 1 (login acme) :: List.replicate 5 (.resume 1 {}))).flatten

def threeRecords : List AuditRow :=
  (run (step plainTypes fun _ => 0) (Sessions.idle []) threeLogins).db

theorem removal_detected_iff_middle : ∃ breaks, breaks ≠ [] ∧
      PgAuditBackend.chainBreaks (threeRecords.filter fun row => row.seq != some 2)
        acme.toString none = .ok breaks := by
  refine ((removal_detected_iff plainTypes (fun _ => 0) chained_nil threeLogins acme.toString
    (Uuid.parseStr_toString acme)).2 fun row => row.seq != some 2).mpr ?_
  exact ⟨_, _, _, .refl _, rfl, rfl, rfl⟩

/-- Without the first of three records, or without the last, the check finds nothing. -/
theorem removal_of_ends_passes : (threeRecords.map AuditRow.seq = [some 1, some 2, some 3]) ∧
    PgAuditBackend.chainBreaks (threeRecords.filter fun row => row.seq != some 1)
      acme.toString none = .ok [] ∧
    PgAuditBackend.chainBreaks (threeRecords.filter fun row => row.seq != some 3)
      acme.toString none = .ok [] := by
  refine ⟨rfl, ?_, ?_⟩
  · rfl
  · rfl

end WslVault.AuditService
