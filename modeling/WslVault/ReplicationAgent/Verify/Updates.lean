import WslVault.Base.Register
import WslVault.ReplicationAgent.Outbox

/-!
# Replicated policies and tenants

An update of a policy or a tenant is to win by the time of its event, but only an inserted
row has the event's time: an update leaves the time at which it was applied.
-/

namespace WslVault.ReplicationAgent

open Core Base Storage

variable {s : Replica} {a : Application}

namespace Replica

variable {strategy localRegion : String}

theorem step_of_isOk (h : (a.result strategy localRegion s.db).isOk = true) :
    ∃ db, a.result strategy localRegion s.db = .ok db ∧
      (s.step strategy localRegion a).1 = ⟨db, s.applied ++ [a.event]⟩ := by
  rw [step]
  cases hres : a.result strategy localRegion s.db with
  | ok db => exact ⟨db, rfl, rfl⟩
  | error e =>
    rw [hres] at h
    cases h

theorem applied_run {as : List Application} (h : Along (step strategy localRegion)
      (fun s a => (a.result strategy localRegion s.db).isOk = true) s as) :
    (run (step strategy localRegion) s as).applied = s.applied ++ as.map (·.event) := by
  induction as generalizing s with
  | nil => exact (List.append_nil s.applied).symm
  | cons a as ih =>
    obtain ⟨db, -, hstep⟩ := step_of_isOk h.1
    rw [run, ih h.2, hstep, List.map_cons, List.append_assoc, List.singleton_append]

end Replica

/-! ## What an update writes -/

inductive Key where
  | policy (tenantId : Uuid) (name : String)
  | tenant (id : Uuid)
  deriving DecidableEq

inductive Content where
  | policy (document : Json)
  | tenant (update : TenantUpdate)

namespace Key

def cell (r : RegionDb) : Key → Option (Content × Timestamp)
  | policy tenantId name =>
    (r.policies.get? (tenantId, name)).map fun p => (.policy p.document, p.updatedAt)
  | tenant id => (r.tenants.get? id).map fun t => (.tenant (.ofRow t), t.updatedAt)

def tenantUpdate (e : ReplicationEvent) : Option TenantUpdate := do
  let slug ← e.payload.texts.lookup "slug"
  let displayName ← e.payload.texts.lookup "display_name"
  let tier ← (e.payload.texts.lookup "tier").bind TenantTier.ofText
  let rootKeyId ← e.payload.texts.lookup "root_key_id"
  return ⟨slug, displayName, tier, rootKeyId, e.payload.deletedAt⟩

def payload (e : ReplicationEvent) : Key → Option Content
  | policy tenantId name =>
    if e.eventType = .policyUpdate ∧
        (e.payload.texts.lookup "tenant_id").bind Uuid.ofPg = some tenantId ∧
        e.payload.texts.lookup "name" = some name then
      e.payload.document.map .policy
    else none
  | tenant id =>
    if e.eventType = .tenantUpdate ∧ (e.payload.texts.lookup "id").bind Uuid.ofPg = some id then
      (tenantUpdate e).map .tenant
    else none

end Key

def overwrite (now createdAt : Timestamp) (c : Content) :
    Option (Content × Timestamp) → Content × Timestamp
  | none => (c, createdAt)
  | some (d, updatedAt) => if updatedAt > createdAt then (d, updatedAt) else (c, now)

variable {text : String} {e : ReplicationEvent} {id : Uuid}

theorem ReplicationEvent.field_eq_ok {key : String}
    (h : e.payload.texts.lookup key = some text) (context : String) :
    e.field key context = .ok text := by
  rw [ReplicationEvent.field, h]

theorem ReplicationEvent.lookup_of_field {key context : String}
    (h : e.field key context = .ok text) : e.payload.texts.lookup key = some text := by
  unfold ReplicationEvent.field at h
  split at h
  · next t ht =>
    cases h
    exact ht
  · cases h

theorem castUuid_of_bind {text : Option String}
    (h : text.bind Uuid.ofPg = some id) : ∃ t, text = some t ∧ castUuid t = .ok id := by
  obtain ⟨t, rfl, ht⟩ := Option.bind_eq_some_iff.mp h
  exact ⟨t, rfl, by rw [castUuid, ht]⟩

namespace RegionDb

variable {r r' : RegionDb} {e : ReplicationEvent} {now : Timestamp}

theorem insertPolicy_eq_ok {p : PolicyRow} (h : r.insertPolicy p = .ok r') :
    r.policies.insert? p = some r'.policies := by
  unfold insertPolicy at h
  split at h
  · cases h
  · next policies hins =>
    split at h
    · cases h
      exact hins
    · cases h

theorem applyPolicyUpdate_get? {tenantId : Uuid} {name : String} {document : Json}
    (htext : e.payload.texts.lookup "tenant_id" = some text) (hcast : castUuid text = .ok tenantId)
    (hname : e.payload.texts.lookup "name" = some name) (hdoc : e.payload.document = some document)
    (hok : r.applyPolicyUpdate now e = .ok r') : r'.policies.get? (tenantId, name) =
      match r.policies.get? (tenantId, name) with
      | none => some (.ofEvent now tenantId name document e.createdAt)
      | some p =>
        if p.updatedAt > e.createdAt then some p
        else some (p.replicate now document e.createdAt) := by
  have hdocument : requireDocument e = .ok document := by rw [requireDocument, hdoc]
  rw [applyPolicyUpdate, e.field_eq_ok htext, ok_bind, e.field_eq_ok hname, ok_bind, hdocument,
    ok_bind, hcast, ok_bind] at hok
  cases hrow : r.policies.get? (tenantId, name) with
  | none =>
    rw [hrow] at hok
    exact (Table.get?_insert? (insertPolicy_eq_ok hok) _).trans (if_pos rfl)
  | some p =>
    rw [hrow] at hok
    by_cases hnewer : p.updatedAt > e.createdAt
    · simp only [hnewer, if_true, pure_eq_ok] at hok ⊢
      rw [← hok, hrow]
    · simp only [hnewer, if_false, pure_eq_ok] at hok ⊢
      have hkey : p.nameKey = (tenantId, name) := (Table.get?_eq_some.mp hrow).2
      rw [← hok, Table.get?_update (PolicyRow.nameKey_replicate now document e.createdAt), hrow]
      simp [hkey]

theorem insertTenant_eq_ok {t : TenantRow} (h : r.insertTenant t = .ok r') :
    r.tenants.insert? t = some r'.tenants := by
  unfold insertTenant at h
  split at h
  · cases h
  · next tenants hins =>
    cases h
    exact hins

theorem applyTenantUpdate_get? {u : TenantUpdate}
    (htext : e.payload.texts.lookup "id" = some text) (hcast : castUuid text = .ok id)
    (hupdate : Key.tenantUpdate e = some u) (hok : r.applyTenantUpdate now e = .ok r') :
    r'.tenants.get? id =
      match r.tenants.get? id with
      | none => some (u.newRow now id e.createdAt)
      | some t =>
        if t.updatedAt > e.createdAt then some t else some (u.replicate now e.createdAt t) := by
  simp only [Key.tenantUpdate, Option.bind_eq_bind, Option.bind_eq_some_iff, Option.pure_def,
    Option.some.injEq] at hupdate
  obtain ⟨slug, hslug, displayName, hdisplay, tier, ⟨tierText, htierText, htier⟩, rootKeyId, hroot,
    rfl⟩ := hupdate
  have hcheck : checkTier tierText = .ok tier := by rw [checkTier, htier]
  rw [applyTenantUpdate, e.field_eq_ok htext, ok_bind, e.field_eq_ok hslug, ok_bind,
    e.field_eq_ok hdisplay, ok_bind, e.field_eq_ok htierText, ok_bind, e.field_eq_ok hroot, ok_bind,
    hcast, ok_bind, hcheck] at hok
  cases hrow : r.tenants.get? id with
  | none =>
    simp only [hrow, ok_bind, bind_eq_ok] at hok
    obtain ⟨_, -, hins⟩ := hok
    exact (Table.get?_insert? (insertTenant_eq_ok hins) _).trans (if_pos rfl)
  | some t =>
    rw [hrow] at hok
    by_cases hnewer : t.updatedAt > e.createdAt
    · simp only [hnewer, if_true, pure_eq_ok] at hok ⊢
      rw [← hok, hrow]
    · simp only [hnewer, if_false, ok_bind, bind_eq_ok, pure_eq_ok] at hok ⊢
      obtain ⟨_, -, rfl⟩ := hok
      have hid : t.id = id := (Table.get?_eq_some.mp hrow).2
      rw [Table.get?_update (TenantUpdate.id_replicate _ now e.createdAt), hrow]
      simp [hid]

end RegionDb

namespace Key

variable {localRegion strategy : String} (createdAt : Timestamp)

/-- An update overwrites the row unless it is newer. The row then has the time
of the application, or, when it is new, that of the event. -/
theorem cell_applyEvent {r r' : RegionDb}
    {key : Key} {c : Content} (hpayload : key.payload a.event = some c)
    (hok : a.result strategy localRegion r = .ok r') :
    key.cell r' = some (overwrite a.now a.event.createdAt c (key.cell r)) := by
  cases key with
  | policy tenantId name =>
    simp only [payload] at hpayload
    split at hpayload
    · next h =>
      obtain ⟨htype, htid, hname⟩ := h
      obtain ⟨document, hdoc, rfl⟩ := Option.map_eq_some_iff.mp hpayload
      obtain ⟨text, htext, hcast⟩ := castUuid_of_bind htid
      have hok := a.applyEvent_of_result hok
      simp only [RegionDb.applyEvent, htype] at hok
      rw [cell, cell, RegionDb.applyPolicyUpdate_get? htext hcast hname hdoc hok]
      cases r.policies.get? (tenantId, name) with
      | none => rfl
      | some p =>
        by_cases hnewer : p.updatedAt > a.event.createdAt
        · simp [overwrite, hnewer]
        · simp [overwrite, hnewer, PolicyRow.replicate, PolicyRow.touch]
    · cases hpayload
  | tenant id =>
    simp only [payload] at hpayload
    split at hpayload
    · next h =>
      obtain ⟨htype, hid⟩ := h
      obtain ⟨u, hu, rfl⟩ := Option.map_eq_some_iff.mp hpayload
      obtain ⟨text, htext, hcast⟩ := castUuid_of_bind hid
      have hok := a.applyEvent_of_result hok
      simp only [RegionDb.applyEvent, htype] at hok
      rw [cell, cell, RegionDb.applyTenantUpdate_get? htext hcast hu hok]
      cases r.tenants.get? id with
      | none => rfl
      | some t =>
        by_cases hnewer : t.updatedAt > a.event.createdAt
        · simp [overwrite, hnewer]
        · simp [overwrite, hnewer, TenantUpdate.replicate, TenantRow.touch, TenantUpdate.ofRow]
    · cases hpayload

/-- The decision against the row's time is that against the events applied
before: the row is no newer than the event exactly when none of them is. -/
def InOrder (key : Key) (s : Replica) (e : ReplicationEvent) : Prop :=
  ∀ c updatedAt, key.cell s.db = some (c, updatedAt) →
    (updatedAt ≤ e.createdAt ↔ ∀ b ∈ s.applied, b.createdAt ≤ e.createdAt)

/-- Only updates of the key were applied, and the row shows the content of the
latest of them. -/
def Shows (key : Key) (s : Replica) : Prop :=
  (∀ b ∈ s.applied, (key.payload b).isSome = true) ∧
    ∃ held, Latest ReplicationEvent.createdAt s.applied held ∧
      (key.cell s.db).map (·.1) = held.bind fun e => key.payload e

/-- An update that is applied in order is the one shown. -/
theorem shows_step {key : Key} (hs : key.Shows s) (hpayload : (key.payload a.event).isSome = true)
    (hok : (a.result strategy localRegion s.db).isOk = true) (horder : key.InOrder s a.event) :
    key.Shows (s.step strategy localRegion a).1 := by
  obtain ⟨hall, held, hlatest, hcontent⟩ := hs
  obtain ⟨c, hc⟩ := Option.isSome_iff_exists.mp hpayload
  obtain ⟨db, hdb, hstep⟩ := Replica.step_of_isOk hok
  have hcell := key.cell_applyEvent hc hdb
  rw [hstep]
  refine ⟨fun b hb => ?_, ?_⟩
  · rcases List.mem_append.mp hb with hb | hb
    · exact hall b hb
    · rw [List.mem_singleton.mp hb]
      exact hpayload
  cases hbefore : key.cell s.db with
  | none =>
    -- nothing was applied before
    rw [hbefore] at hcell hcontent
    refine ⟨some a.event, hlatest.take fun b hb => ?_, by simp [hcell, overwrite, hc]⟩
    have hnone : key.payload b = none := by rw [hb] at hcontent; exact hcontent.symm
    have hsome := hall b (hb ▸ hlatest).1
    simp [hnone] at hsome
  | some row =>
    obtain ⟨d, updatedAt⟩ := row
    rw [hbefore] at hcell hcontent
    have hiff := horder d updatedAt hbefore
    cases held with
    | none => cases hcontent
    | some b =>
      by_cases hnewer : updatedAt > a.event.createdAt
      · have hle : a.event.createdAt ≤ b.createdAt := by
          by_contra hlt
          have hbound := hiff.mpr fun x hx => le_trans (hlatest.2 x hx) (le_of_not_ge hlt)
          exact absurd hbound (not_le_of_gt hnewer)
        exact ⟨some b, hlatest.pass hle, by simpa [hcell, overwrite, hnewer] using hcontent⟩
      · have hbound := hiff.mp (le_of_not_gt hnewer)
        refine ⟨some a.event, hlatest.take fun x hx => ?_, by simp [hcell, overwrite, hnewer, hc]⟩
        cases hx
        exact hbound b hlatest.1

/-- A region that did not have the row, and applies updates of one key in any
order and any number of times, each decided in order, ends with the content of
the event with the greatest `created_at`. -/
theorem final_update_is_latest (strategy localRegion : String) (key : Key) (r : RegionDb)
    (hnew : key.cell r = none) (as : List Application)
    (hupdates : ∀ a ∈ as, (key.payload a.event).isSome = true)
    (hdistinct : ∀ a ∈ as, ∀ b ∈ as, a.event.createdAt = b.event.createdAt → a.event = b.event)
    (hgood : Along (Replica.step strategy localRegion)
      (fun s a => (a.result strategy localRegion s.db).isOk = true ∧ key.InOrder s a.event)
      ⟨r, []⟩ as)
    (a : Application) (ha : a ∈ as) (hlast : ∀ b ∈ as, b.event.createdAt ≤ a.event.createdAt) :
    (key.cell (run (Replica.step strategy localRegion) ⟨r, []⟩ as).db).map (·.1) =
      key.payload a.event := by
  have hinit : key.Shows ⟨r, []⟩ :=
    ⟨fun b hb => absurd hb List.not_mem_nil, none, .nil, by rw [hnew]; rfl⟩
  obtain ⟨-, held, hlatest, hcontent⟩ := (hgood.and_forall hupdates).invariant key.Shows
    (fun s a hs h => shows_step hs h.2 h.1.1 h.1.2) hinit
  have happlied := Replica.applied_run (hgood.imp fun s a h => h.1)
  rw [happlied, List.nil_append] at hlatest
  have hheld : held = some a.event := by
    refine hlatest.eq_some (List.mem_map_of_mem ha) (fun e he => ?_) (fun e he f hf heq => ?_)
    · obtain ⟨b, hb, rfl⟩ := List.mem_map.mp he
      exact hlast b hb
    · obtain ⟨b, hb, rfl⟩ := List.mem_map.mp he
      obtain ⟨c, hc, rfl⟩ := List.mem_map.mp hf
      exact hdistinct b hb c hc heq
  rw [hcontent, hheld]
  rfl

def policyEvent (document : String) : ReplicationEvent where
  id := .nil
  eventType := .policyUpdate
  sourceRegion := "eu"
  payload :=
    { texts := [("tenant_id", Uuid.nil.toString), ("name", "app")]
      document := some (.string document) }
  vectorClock := []
  createdAt := createdAt

def tenantEvent (slug : String) : ReplicationEvent where
  id := .nil
  eventType := .tenantUpdate
  sourceRegion := "eu"
  payload :=
    { texts := [("id", Uuid.nil.toString), ("slug", slug), ("display_name", "Acme"),
        ("tier", "shared"), ("root_key_id", "root")] }
  vectorClock := []
  createdAt := createdAt

def emptyRegion : RegionDb := ⟨.empty, .empty, .empty, .empty, .empty, .empty⟩

def acmeRegion : RegionDb :=
  { emptyRegion with
    tenants := ⟨[(⟨"acme", "Acme", .shared, "root", none⟩ : TenantUpdate).newRow 0 .nil 0],
      List.nodup_singleton _⟩ }

theorem final_update_is_latest_of_two :
    let first : Application := { now := 3, event := policyEvent 1 "v1" }
    let second : Application := { now := 6, event := policyEvent 5 "v2" }
    ((policy .nil "app").cell
        (run (Replica.step "lww" "us") ⟨acmeRegion, []⟩ [first, second]).db).map (·.1) =
      (policy .nil "app").payload second.event := by
  intro first second
  have hstep : (Replica.step "lww" "us" ⟨acmeRegion, []⟩ first).1.applied = [first.event] := rfl
  have hcell : (policy .nil "app").cell (Replica.step "lww" "us" ⟨acmeRegion, []⟩ first).1.db =
      some (.policy (.string "v1"), 1) := rfl
  refine final_update_is_latest "lww" "us" (policy .nil "app") acmeRegion rfl [first, second] ?_ ?_
    ⟨⟨rfl, fun c u h => ?_⟩, ⟨rfl, fun c u h => ?_⟩, trivial⟩ second
    (List.mem_cons_of_mem _ List.mem_cons_self) ?_
  · simp only [List.forall_mem_cons]
    exact ⟨rfl, rfl, fun _ h => absurd h List.not_mem_nil⟩
  · simp [first, second, policyEvent]
  · cases h
  · rw [hcell] at h
    cases h
    rw [hstep]
    decide
  · simp [first, second, policyEvent]

/-- Three updates in the order of their creation, the second applied when the
third was already created: the third is dropped, of a policy and of a tenant. -/
theorem later_update_dropped :
    (policy .nil "app").cell (run (Replica.step "lww" "us") ⟨acmeRegion, []⟩
        [{ now := 10, event := policyEvent 1 "v1" }, { now := 100, event := policyEvent 2 "v2" },
          { now := 101, event := policyEvent 50 "v3" }]).db =
      some (.policy (.string "v2"), 100) ∧
    (tenant .nil).cell (run (Replica.step "lww" "us") ⟨emptyRegion, []⟩
        [{ now := 10, event := tenantEvent 1 "a" }, { now := 100, event := tenantEvent 2 "b" },
          { now := 101, event := tenantEvent 50 "c" }]).db =
      some (.tenant ⟨"b", "Acme", .shared, "root", none⟩, 100) := by
  exact ⟨rfl, rfl⟩

end Key

end WslVault.ReplicationAgent
