import WslVault.Storage.Verify.KeyStore

/-!
# The rows of one tenant

Two databases agree on a tenant if they have the same rows of it, in the same order
(`KeyDb.Agree`).
-/

namespace WslVault.Storage.KeyDb

open Core Base

def refusal (db : KeyDb) (r : KeyRow) : Option SqlError :=
  if ∃ x ∈ db.descriptors.rows, x.id = r.id then
    some (.uniqueViolation "key_descriptors_pkey")
  else if ∃ k ∈ r.kekKey, (db.descriptors.rows.filterMap KeyRow.kekKey).contains k then
    some (.uniqueViolation "idx_key_descriptors_kek_unique")
  else if ∃ tenant ∈ r.tenantId, tenant ∉ db.tenants then
    some (.foreignKeyViolation "key_descriptors" "key_descriptors_tenant_id_fkey")
  else none

theorem insertRow_spec (db : KeyDb) (r : KeyRow) :
    (∃ e, db.refusal r = some e ∧ db.insertRow r = .error e) ∨
      (db.refusal r = none ∧ ∃ db', db.insertRow r = .ok db' ∧
        db'.descriptors.rows = db.descriptors.rows ++ [r] ∧ db'.tenants = db.tenants) := by
  unfold insertRow
  split
  · next hins =>
    have hid : ∃ x ∈ db.descriptors.rows, x.id = r.id := Table.insert?_eq_none.mp hins
    exact .inl ⟨_, by rw [refusal, if_pos hid], rfl⟩
  · next descriptors hins =>
    obtain ⟨hnew, hrows⟩ := Table.insert?_eq_some.mp hins
    have hid : ¬ ∃ x ∈ db.descriptors.rows, x.id = r.id := by
      rintro ⟨x, hx, hid⟩
      exact hnew x hx hid
    split
    · next hkek =>
      have hkek' : ¬ ∃ k ∈ r.kekKey, (db.descriptors.rows.filterMap KeyRow.kekKey).contains k := by
        simpa using hkek
      split
      · next htenant =>
        refine .inr ⟨?_, _, rfl, hrows, rfl⟩
        rw [refusal, if_neg hid, if_neg hkek', if_neg (by simpa using htenant)]
      · next htenant =>
        refine .inl ⟨_, ?_, rfl⟩
        rw [refusal, if_neg hid, if_neg hkek', if_pos (by simpa using htenant)]
    · next hkek =>
      refine .inl ⟨_, ?_, rfl⟩
      rw [refusal, if_neg hid, if_pos (by simpa using hkek)]

def isOf (tenantId : String) (r : KeyRow) : Bool :=
  r.tenantId.isSome && r.tenantId = Uuid.parseStr tenantId

variable {tenantId : String} {r : KeyRow}

theorem isOf_eq_true :
    isOf tenantId r = true ↔ ∃ u, r.tenantId = some u ∧ Uuid.parseStr tenantId = some u := by
  unfold isOf
  cases r.tenantId with
  | none => simp
  | some u => simp [eq_comm]

structure Agree (tenantId : String) (db db' : KeyDb) : Prop where
  rows : db'.descriptors.select (isOf tenantId) = db.descriptors.select (isOf tenantId)
  tenants : ∀ u, Uuid.parseStr tenantId = some u → (u ∈ db'.tenants ↔ u ∈ db.tenants)

namespace Agree

variable {tenantId : String} {db db' db'' : KeyDb}

theorem refl (db : KeyDb) : Agree tenantId db db := ⟨rfl, fun _ _ => Iff.rfl⟩

variable (h : Agree tenantId db db')

include h

theorem symm : Agree tenantId db' db :=
  ⟨h.rows.symm, fun u hu => (h.tenants u hu).symm⟩

theorem trans (h' : Agree tenantId db' db'') : Agree tenantId db db'' :=
  ⟨h'.rows.trans h.rows, fun u hu => (h'.tenants u hu).trans (h.tenants u hu)⟩

theorem mem (hr : r ∈ db.descriptors) (hof : isOf tenantId r = true) : r ∈ db'.descriptors := by
  have hmem : r ∈ db'.descriptors.select (isOf tenantId) := by
    rw [h.rows]
    exact Table.mem_select.mpr ⟨hr, hof⟩
  exact (Table.mem_select.mp hmem).1

theorem kekKey (hof : isOf tenantId r = true)
    (hkek : ∃ k ∈ r.kekKey, k ∈ db.descriptors.rows.filterMap KeyRow.kekKey) :
    ∃ k ∈ r.kekKey, k ∈ db'.descriptors.rows.filterMap KeyRow.kekKey := by
  obtain ⟨k, hk, hmem⟩ := hkek
  obtain ⟨x, hx, hxk⟩ := List.mem_filterMap.mp hmem
  have htenant {y : KeyRow} (hy : y.kekKey = some k) : y.tenantId = some k.1 := by
    unfold KeyRow.kekKey at hy
    split at hy
    · cases hy
    · obtain ⟨u, hu, rfl⟩ := Option.map_eq_some_iff.mp hy
      exact hu
  have hofx : isOf tenantId x = true := by
    obtain ⟨u, hu, hparse⟩ := isOf_eq_true.mp hof
    have hku : k.1 = u := Option.some.inj ((htenant hk).symm.trans hu)
    exact isOf_eq_true.mpr ⟨u, hku ▸ htenant hxk, hparse⟩
  exact ⟨k, hk, List.mem_filterMap.mpr ⟨x, h.mem hx hofx, hxk⟩⟩

section

variable (hof : isOf tenantId r = true)
  (hid : (∃ x ∈ db.descriptors, x.id = r.id) ↔ ∃ x ∈ db'.descriptors, x.id = r.id)

include hof hid

/-- A row of the tenant is refused by both for one reason, if its id is taken in both
or neither. -/
theorem refusal :
    db'.refusal r = db.refusal r := by
  have hkek := Iff.intro (h.kekKey hof) (h.symm.kekKey hof)
  have htenants : (∃ tenant ∈ r.tenantId, tenant ∉ db.tenants) ↔
      ∃ tenant ∈ r.tenantId, tenant ∉ db'.tenants := by
    obtain ⟨u, hu, hparse⟩ := isOf_eq_true.mp hof
    simp [hu, h.tenants u hparse]
  simp only [KeyDb.refusal, List.contains_iff_mem]
  refine if_congr hid.symm rfl (if_congr hkek.symm rfl (if_congr htenants.symm rfl rfl))

theorem insertRow : (∃ e, db.insertRow r = .error e ∧ db'.insertRow r = .error e) ∨
      ∃ db₁ db₁', db.insertRow r = .ok db₁ ∧ db'.insertRow r = .ok db₁' ∧
        Agree tenantId db₁ db₁' := by
  have hrefusal := h.refusal hof hid
  rcases db.insertRow_spec r with ⟨e, he, heq⟩ | ⟨hnone, db₁, heq, hrows, htenants⟩
  · rcases db'.insertRow_spec r with ⟨e', he', heq'⟩ | ⟨hnone', -⟩
    · rw [hrefusal, he, Option.some.injEq] at he'
      exact .inl ⟨e, heq, he' ▸ heq'⟩
    · rw [hrefusal, he] at hnone'
      cases hnone'
  · rcases db'.insertRow_spec r with ⟨e', he', -⟩ | ⟨-, db₁', heq', hrows', htenants'⟩
    · rw [hrefusal, hnone] at he'
      cases he'
    · refine .inr ⟨db₁, db₁', heq, heq', ?_, ?_⟩
      · have hselect := h.rows
        unfold Table.select at hselect ⊢
        rw [hrows, hrows', List.filter_append, List.filter_append, hselect]
      · rw [htenants, htenants']
        exact h.tenants

end

theorem setState (id : Uuid) (state : KeyState) :
    Agree tenantId (db.setState id state) (db'.setState id state) := by
  refine ⟨?_, h.tenants⟩
  have hkeeps (r : KeyRow) : isOf tenantId (r.setState state) = isOf tenantId r := rfl
  unfold KeyDb.setState
  rw [Table.select_update (KeyRow.id_setState state) hkeeps,
    Table.select_update (KeyRow.id_setState state) hkeeps, h.rows]

end Agree

theorem agree_insertRow {db db' : KeyDb}
    (h : db.insertRow r = .ok db') (hof : isOf tenantId r = false) : Agree tenantId db db' := by
  rcases db.insertRow_spec r with ⟨e, -, heq⟩ | ⟨-, db₁, heq, hrows, htenants⟩
  · rw [h] at heq
    cases heq
  · obtain rfl : db' = db₁ := Except.ok.inj (h.symm.trans heq)
    refine ⟨?_, fun u _ => by rw [htenants]⟩
    unfold Table.select
    rw [hrows, List.filter_append]
    simp [hof]

theorem agree_setState {db : KeyDb} {id : Uuid} (state : KeyState)
    (hof : ∀ r ∈ db.descriptors, r.id = id → isOf tenantId r = false) :
    Agree tenantId db (db.setState id state) := by
  refine ⟨?_, fun _ _ => Iff.rfl⟩
  unfold KeyDb.setState
  refine Table.select_update_of_disjoint (KeyRow.id_setState state) (fun _ => rfl) ?_
  intro r hr hown
  refine decide_eq_false fun hid => ?_
  rw [hof r hr hid] at hown
  cases hown

end WslVault.Storage.KeyDb

namespace WslVault.Storage.KeyStore

open Core Base KeyDb

def ofTenant (tenantId : String) (entry : PersistedKeyEntry) : Bool :=
  entry.tenantId.any fun t =>
    (Uuid.parseStr t).isSome && Uuid.parseStr t = Uuid.parseStr tenantId

theorem ofTenant_entryOf (tenantId : String) (r : KeyRow) :
    ofTenant tenantId (entryOf r) = isOf tenantId r := by
  unfold ofTenant isOf entryOf
  cases r.tenantId with
  | none => rfl
  | some u => simp [Uuid.parseStr_toString]

theorem filter_byVersion (p : KeyRow → Bool) (rows : List KeyRow) :
    (byVersion rows).filter p = byVersion (rows.filter p) := by
  have : IsTrans KeyRow fun r r' => r.version ≤ r'.version := ⟨fun _ _ _ => Int.le_trans⟩
  have : Std.Total fun r r' : KeyRow => r.version ≤ r'.version := ⟨fun r r' => Int.le_total _ _⟩
  exact filter_insertionSort p rows

theorem filter_newestFirst (p : KeyRow → Bool) (rows : List KeyRow) :
    (newestFirst rows).filter p = newestFirst (rows.filter p) := by
  have : IsTrans KeyRow fun r r' => r'.createdAt ≤ r.createdAt :=
    ⟨fun _ _ _ h h' => Int.le_trans h' h⟩
  have : Std.Total fun r r' : KeyRow => r'.createdAt ≤ r.createdAt :=
    ⟨fun r r' => Int.le_total _ _⟩
  exact filter_insertionSort p rows

variable {purpose : KeyPurpose} {limit : Option Nat}

/-- The limit leaves no key out. -/
def Whole (db : KeyDb) (purpose : KeyPurpose) (limit : Option Nat) : Prop :=
  ∀ n ∈ limit, (db.descriptors.select fun r => r.purpose = purpose && r.loadable).length ≤ n

theorem whole_none (db : KeyDb) (purpose : KeyPurpose) : Whole db purpose none :=
  fun _ hn => by cases hn

/-- What is read back from two databases: rows of theirs, and the same ones of the tenant. -/
structure ReadAlike (tenantId : String) (db db' : KeyDb) (rows rows' : List PersistedKeyEntry) :
    Prop where
  mem : ∀ e ∈ rows, ∃ r ∈ db.descriptors, entryOf r = e
  mem' : ∀ e ∈ rows', ∃ r ∈ db'.descriptors, entryOf r = e
  own : rows.filter (ofTenant tenantId) = rows'.filter (ofTenant tenantId)

/-- Without a limit that leaves rows out, the tenant's keys are read back from its own
rows. -/
theorem filter_listRecentLoadableKeys (tenantId : String) {db : KeyDb}
    (hwhole : Whole db purpose limit) :
    ∃ rows, (∀ fault, listRecentLoadableKeys db fault purpose limit = fetchAll fault rows) ∧
      rows.filter (ofTenant tenantId) =
        (byVersion (newestFirst ((db.descriptors.select (isOf tenantId)).filter fun r =>
          r.purpose = purpose && r.loadable))).map entryOf := by
  refine ⟨(byVersion (newestFirst
    (db.descriptors.select fun r => r.purpose = purpose && r.loadable))).map entryOf,
    fun fault => ?_, ?_⟩
  · unfold listRecentLoadableKeys
    cases limit with
    | none => rfl
    | some n =>
      have hlength : (newestFirst
          (db.descriptors.select fun r => r.purpose = purpose && r.loadable)).length ≤ n := by
        rw [newestFirst, List.length_insertionSort]
        exact hwhole n rfl
      simp only [List.take_of_length_le hlength]
  · have hof : ofTenant tenantId ∘ entryOf = isOf tenantId := by
      funext r
      exact ofTenant_entryOf tenantId r
    rw [List.filter_map, hof, filter_byVersion, filter_newestFirst]
    unfold Table.select
    rw [List.filter_filter, List.filter_filter]
    simp only [Bool.and_comm]

theorem agree_listRecentLoadableKeys {tenantId : String} {db db' : KeyDb}
    (h : Agree tenantId db db') (fault : Option String) (hwhole : Whole db purpose limit)
    (hwhole' : Whole db' purpose limit) :
    ∃ rows rows', listRecentLoadableKeys db fault purpose limit = fetchAll fault rows ∧
      listRecentLoadableKeys db' fault purpose limit = fetchAll fault rows' ∧
      ReadAlike tenantId db db' rows rows' := by
  obtain ⟨rows, hrows, hof⟩ := filter_listRecentLoadableKeys tenantId hwhole
  obtain ⟨rows', hrows', hof'⟩ := filter_listRecentLoadableKeys tenantId hwhole'
  have hmem {d : KeyDb} {rows : List PersistedKeyEntry}
      (hread : listRecentLoadableKeys d none purpose limit = .ok rows) :
      ∀ e ∈ rows, ∃ r ∈ d.descriptors, entryOf r = e := by
    intro e he
    obtain ⟨r, hr, -, heq⟩ := (listRecentLoadableKeys_spec hread).2 e he
    exact ⟨r, hr, heq⟩
  exact ⟨rows, rows', hrows fault, hrows' fault, hmem (hrows none), hmem (hrows' none),
    by rw [hof, hof', h.rows]⟩

end WslVault.Storage.KeyStore
