import Mathlib.Data.List.Pairwise
import Mathlib.Data.List.Sort

/-!
# Tables with a unique key

A table of a relational database with one uniqueness constraint, as a field: an insertion
that would break it does not give a table, and an update has to keep the key of every row
it changes. Rows keep the order they were inserted in.
-/

namespace WslVault.Base

variable {ρ κ : Type*} {key : ρ → κ}

structure Table (ρ : Type*) {κ : Type*} (key : ρ → κ) where
  rows : List ρ
  nodup : (rows.map key).Nodup

namespace Table

instance : Membership ρ (Table ρ key) := ⟨fun t r => r ∈ t.rows⟩

variable {t t' : Table ρ key} {f : ρ → ρ} {q : ρ → Bool} {r x : ρ} {k : κ}

theorem mem_def : r ∈ t ↔ r ∈ t.rows := Iff.rfl

def empty : Table ρ key := ⟨[], List.nodup_nil⟩

def singleton (r : ρ) : Table ρ key := ⟨[r], List.nodup_singleton _⟩

@[simp] theorem not_mem_empty (r : ρ) : r ∉ (empty : Table ρ key) := List.not_mem_nil

theorem ext_rows (h : t.rows = t'.rows) : t = t' := by
  cases t
  cases t'
  cases h
  rfl

theorem eq_of_key {r' : ρ} (hr : r ∈ t) (hr' : r' ∈ t) (h : key r = key r') : r = r' :=
  List.inj_on_of_nodup_map t.nodup hr hr' h

/-- Rows of a partial unique index are told apart by what it indexes. -/
theorem eq_of_index {ι : Type*} {rows : List ρ} {index : ρ → Option ι}
    (hrows : (rows.filterMap index).Nodup) {r' : ρ} (hr : r ∈ rows) (hr' : r' ∈ rows) {i : ι}
    (h : index r = some i) (h' : index r' = some i) : r = r' := by
  have hpairwise := List.pairwise_filterMap.mp hrows
  have hsymm : Std.Symm fun r r' : ρ => ∀ b, index r = some b → ∀ b', index r' = some b' → b ≠ b' :=
    ⟨fun _ _ hne b hb b' hb' => (hne b' hb' b hb).symm⟩
  by_contra hne
  exact hpairwise.forall hr hr' hne i h i h' rfl

section Decidable

variable [DecidableEq κ]

def get? (t : Table ρ key) (k : κ) : Option ρ := t.rows.find? fun r => key r = k

theorem get?_eq_some : t.get? k = some r ↔ r ∈ t ∧ key r = k := by
  constructor
  · intro h
    exact ⟨List.mem_of_find?_eq_some h, by simpa using List.find?_some h⟩
  · rintro ⟨hr, rfl⟩
    cases h : t.get? (key r) with
    | none => exact absurd (List.find?_eq_none.mp h r hr) (by simp)
    | some r' =>
      have hr' : r' ∈ t := List.mem_of_find?_eq_some h
      have hk : key r' = key r := by simpa using List.find?_some h
      rw [eq_of_key hr' hr hk]

theorem get?_eq_none : t.get? k = none ↔ ∀ r ∈ t, key r ≠ k := by
  simp [get?, mem_def]

def insert? (t : Table ρ key) (r : ρ) : Option (Table ρ key) :=
  if h : key r ∈ t.rows.map key then none
  else
    some ⟨t.rows ++ [r], by
      rw [List.map_append]
      refine List.nodup_append.mpr ⟨t.nodup, List.nodup_singleton _, ?_⟩
      rintro k hk k' hk' rfl
      exact h (List.mem_singleton.mp hk' ▸ hk)⟩

theorem insert?_eq_some :
    t.insert? r = some t' ↔ (∀ x ∈ t, key x ≠ key r) ∧ t'.rows = t.rows ++ [r] := by
  unfold insert?
  split
  · next h =>
    obtain ⟨x, hx, hk⟩ := List.mem_map.mp h
    simp only [reduceCtorEq, false_iff, not_and]
    exact fun hno => absurd hk (hno x hx)
  · next h =>
    constructor
    · rintro ⟨⟩
      exact ⟨fun x hx hk => h (hk ▸ List.mem_map_of_mem hx), rfl⟩
    · rintro ⟨-, hrows⟩
      exact congrArg some (ext_rows hrows.symm)

theorem insert?_eq_none : t.insert? r = none ↔ ∃ x ∈ t, key x = key r := by
  unfold insert?
  split
  · next h => exact ⟨fun _ => List.mem_map.mp h, fun _ => rfl⟩
  · next h =>
    constructor
    · rintro ⟨⟩
    · rintro ⟨x, hx, hk⟩
      exact absurd (hk ▸ List.mem_map_of_mem hx) h

theorem mem_of_insert? (h : t.insert? r = some t') : x ∈ t' ↔ x ∈ t ∨ x = r := by
  rw [mem_def, (insert?_eq_some.mp h).2, List.mem_append, List.mem_singleton]
  rfl

theorem get?_insert? (h : t.insert? r = some t') (k : κ) :
    t'.get? k = if key r = k then some r else t.get? k := by
  obtain ⟨hfree, hrows⟩ := insert?_eq_some.mp h
  by_cases hk : key r = k
  · rw [if_pos hk]
    exact get?_eq_some.mpr ⟨(mem_of_insert? h).mpr (.inr rfl), hk⟩
  · rw [if_neg hk, get?, get?, hrows, List.find?_append]
    simp [hk]

end Decidable

/-- `UPDATE`: change the rows that satisfy `p` by `f`, which keeps keys. -/
def update (t : Table ρ key) (p : ρ → Bool) (f : ρ → ρ) (hf : ∀ r, key (f r) = key r) :
    Table ρ key where
  rows := t.rows.map fun r => if p r then f r else r
  nodup := by
    have hkeys : (t.rows.map fun r => if p r then f r else r).map key = t.rows.map key := by
      rw [List.map_map]
      refine List.map_congr_left fun r _ => ?_
      simp only [Function.comp_apply]
      split
      · exact hf r
      · rfl
    rw [hkeys]
    exact t.nodup

variable {p : ρ → Bool} (hf : ∀ r, key (f r) = key r)

theorem mem_update : x ∈ t.update p f hf ↔ ∃ r ∈ t, (if p r then f r else r) = x :=
  List.mem_map

theorem map_rows_update {γ : Type*} {g : ρ → γ} (h : ∀ r ∈ t, p r = true → g (f r) = g r) :
    (t.update p f hf).rows.map g = t.rows.map g := by
  rw [update, List.map_map]
  refine List.map_congr_left fun r hr => ?_
  simp only [Function.comp_apply]
  split
  · next hp => exact h r hr hp
  · rfl

theorem find?_update (hq : ∀ r, q (f r) = q r) :
    (t.update p f hf).rows.find? q = (t.rows.find? q).map fun r => if p r then f r else r := by
  have hrow : ∀ r, q (if p r then f r else r) = q r := by
    intro r
    split
    · exact hq r
    · rfl
  rw [update, List.find?_map, show (q ∘ fun r => if p r then f r else r) = q from funext hrow]

theorem get?_update [DecidableEq κ] (k : κ) :
    (t.update p f hf).get? k = (t.get? k).map fun r => if p r then f r else r :=
  find?_update hf fun r => by rw [hf]

theorem get?_update_key [DecidableEq κ] (hp : ∀ r, p r = true ↔ key r = k) :
    (t.update p f hf).get? k = (t.get? k).map f := by
  rw [get?_update]
  refine Option.map_congr fun r hr => ?_
  rw [if_pos ((hp r).mpr (get?_eq_some.mp hr).2)]

def delete (t : Table ρ key) (p : ρ → Bool) : Table ρ key where
  rows := t.rows.filter (!p ·)
  nodup := t.nodup.sublist (List.filter_sublist.map key)

theorem mem_delete : x ∈ t.delete p ↔ x ∈ t ∧ p x = false := by
  simp [mem_def, delete]

def select (t : Table ρ key) (p : ρ → Bool) : List ρ := t.rows.filter p

theorem mem_select : x ∈ t.select p ↔ x ∈ t ∧ p x = true :=
  List.mem_filter

theorem select_eq_singleton (h : ∀ x, x ∈ t ∧ p x = true ↔ x = r) :
    t.select p = [r] := by
  have hnodup : (t.select p).Nodup := t.nodup.of_map.filter p
  have hmem : ∀ x, x ∈ t.select p ↔ x ∈ [r] := fun x => by
    rw [mem_select, h, List.mem_singleton]
  have hperm := (List.perm_ext_iff_of_nodup hnodup (List.nodup_singleton r)).mpr hmem
  exact List.perm_singleton.mp hperm

theorem select_update (hq : ∀ r, q (f r) = q r) :
    (t.update p f hf).select q = (t.select q).map fun r => if p r then f r else r := by
  rw [select, select, update, List.filter_map]
  congr 2
  funext r
  simp only [Function.comp_apply]
  split
  · exact hq r
  · rfl

theorem select_update_of_disjoint
    (hq : ∀ r, q (f r) = q r) (hp : ∀ r ∈ t, q r = true → p r = false) :
    (t.update p f hf).select q = t.select q := by
  rw [select_update hf hq]
  conv_rhs => rw [← List.map_id (t.select q)]
  refine List.map_congr_left fun r hr => ?_
  obtain ⟨hmem, hqr⟩ := mem_select.mp hr
  simp [hp r hmem hqr]

end Table

section Ordered

variable {r : ρ → ρ → Prop} [DecidableRel r] {l : List ρ}

theorem orderedInsert_of_forall {a : ρ} (h : ∀ b ∈ l, r a b) : l.orderedInsert r a = a :: l := by
  cases l with
  | nil => rfl
  | cons b l => exact List.orderedInsert_cons_of_le r l (h b List.mem_cons_self)

variable [IsTrans ρ r] (p : ρ → Bool)

theorem filter_orderedInsert (a : ρ) (h : l.Pairwise r) : (l.orderedInsert r a).filter p =
      if p a then (l.filter p).orderedInsert r a else l.filter p := by
  induction l with
  | nil => cases hp : p a <;> simp [hp]
  | cons b l ih =>
    obtain ⟨hb, hl⟩ := List.pairwise_cons.mp h
    by_cases hab : r a b
    · rw [List.orderedInsert_cons_of_le r l hab, List.filter_cons]
      have hall : ∀ c ∈ (b :: l).filter p, r a c := by
        intro c hc
        rcases List.mem_cons.mp (List.mem_filter.mp hc).1 with rfl | hc
        · exact hab
        · exact IsTrans.trans a b c hab (hb c hc)
      rw [orderedInsert_of_forall hall]
    · rw [List.orderedInsert_of_not_le r l hab, List.filter_cons, ih hl, List.filter_cons]
      cases hpb : p b with
      | false => simp
      | true =>
        cases hpa : p a with
        | false => simp
        | true => simp [List.orderedInsert_of_not_le r _ hab]

/-- What is taken out of ordered rows is in the order it has by itself. -/
theorem filter_insertionSort [Std.Total r] (l : List ρ) :
    (l.insertionSort r).filter p = (l.filter p).insertionSort r := by
  induction l with
  | nil => rfl
  | cons a l ih =>
    rw [List.insertionSort_cons, filter_orderedInsert p a (List.pairwise_insertionSort r l), ih,
      List.filter_cons]
    cases hp : p a with
    | false => simp
    | true => simp

end Ordered

end WslVault.Base
