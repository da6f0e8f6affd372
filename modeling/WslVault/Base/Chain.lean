import Mathlib.Data.List.Sort

/-!
# Numbered chains

Entries with a number, a digest of their own and the digest of the one before. A list of
them is linked if the numbers count up and each entry has the digest of the one before it.
-/

namespace WslVault.Base.Chain

variable {ε η : Type*} (num : ε → Int) (own prev : ε → η)

/-- The entries count up from `n`, and each has the digest of the one before, the first
of them `h`. -/
def Linked : Int → η → List ε → Prop
  | _, _, [] => True
  | n, h, e :: es => num e = n + 1 ∧ prev e = h ∧ Linked (n + 1) (own e) es

def tip (own : ε → η) (h : η) (es : List ε) : η := (es.getLast?.map own).getD h

variable {num own prev} {n : Int} {h : η} {es : List ε} {e : ε}

theorem tip_cons (e : ε) (h : η) (es : List ε) : tip own h (e :: es) = tip own (own e) es := by
  unfold tip
  cases es with
  | nil => rfl
  | cons x xs =>
    rw [List.getLast?_cons_cons]
    cases hlast : (x :: xs).getLast? with
    | none => simp at hlast
    | some y => rfl

theorem linked_concat : Linked num own prev n h (es ++ [e]) ↔
      Linked num own prev n h es ∧ num e = n + es.length + 1 ∧ prev e = tip own h es := by
  induction es generalizing n h with
  | nil => simp [Linked, tip]
  | cons x xs ih =>
    have hlength : n + 1 + (xs.length : Int) + 1 = n + ((x :: xs).length : Int) + 1 := by
      rw [List.length_cons]
      omega
    rw [List.cons_append, Linked, Linked, ih, tip_cons, hlength]
    tauto

section

variable (hes : Linked num own prev n h es)
include hes

theorem Linked.place {k : Nat} (he : es[k]? = some e) : num e = n + k + 1 ∧ (k = 0 → prev e = h) ∧
      ∀ j p, k = j + 1 → es[j]? = some p → prev e = own p := by
  induction es generalizing n h k with
  | nil => simp at he
  | cons x xs ih =>
    obtain ⟨hnum, hprev, hrest⟩ := hes
    cases k with
    | zero =>
      cases List.getElem?_cons_zero.symm.trans he
      exact ⟨by simpa using hnum, fun _ => hprev, fun j p hj => by omega⟩
    | succ k =>
      rw [List.getElem?_cons_succ] at he
      obtain ⟨hnum', hfirst, hlater⟩ := ih hrest he
      refine ⟨?_, fun hk => by omega, fun j p hj hp => ?_⟩
      · rw [hnum']
        push_cast
        omega
      · obtain rfl : j = k := by omega
        cases j with
        | zero =>
          cases List.getElem?_cons_zero.symm.trans hp
          exact hfirst rfl
        | succ j => exact hlater j p rfl ((List.getElem?_cons_succ).symm.trans hp)

theorem Linked.lt_num (he : e ∈ es) : n < num e := by
  obtain ⟨k, hk⟩ := List.mem_iff_getElem?.mp he
  have hnum := (hes.place hk).1
  omega

theorem Linked.num_last (he : es.getLast? = some e) : num e = n + es.length := by
  rw [List.getLast?_eq_getElem?] at he
  have hnum := (hes.place he).1
  have hlt := (List.getElem?_eq_some_iff.mp he).1
  omega

theorem Linked.prev_eq {a b : ε} (ha : a ∈ es) (hb : b ∈ es) (hnext : num b = num a + 1) :
    prev b = own a := by
  obtain ⟨i, hi⟩ := List.mem_iff_getElem?.mp ha
  obtain ⟨j, hj⟩ := List.mem_iff_getElem?.mp hb
  have hnumA := (hes.place hi).1
  obtain ⟨hnumB, -, hlink⟩ := hes.place hj
  exact hlink i a (by omega) hi

theorem Linked.pairwise : es.Pairwise fun a b => num a ≤ num b := by
  induction es generalizing n h with
  | nil => exact List.Pairwise.nil
  | cons x xs ih =>
    obtain ⟨hnum, -, hrest⟩ := hes
    refine List.Pairwise.cons (fun y hy => ?_) (ih hrest)
    have hlt := hrest.lt_num hy
    omega

end

def neighbours (es : List ε) : List (ε × ε) := es.zip es.tail

@[simp] theorem neighbours_nil : neighbours ([] : List ε) = [] := rfl

@[simp] theorem neighbours_singleton (e : ε) : neighbours [e] = [] := rfl

@[simp] theorem neighbours_cons_cons (a b : ε) (es : List ε) :
    neighbours (a :: b :: es) = (a, b) :: neighbours (b :: es) := rfl

theorem mem_of_mem_neighbours {p : ε × ε} (hp : p ∈ neighbours es) : p.1 ∈ es ∧ p.2 ∈ es := by
  obtain ⟨a, b⟩ := p
  obtain ⟨ha, hb⟩ := List.of_mem_zip hp
  exact ⟨ha, List.mem_of_mem_tail hb⟩

theorem Linked.no_gap (hes : Linked num own prev n h es) {p : ε × ε} (hp : p ∈ neighbours es) :
    num p.2 = num p.1 + 1 := by
  induction es generalizing n h with
  | nil => simp at hp
  | cons x xs ih =>
    obtain ⟨hnum, -, hrest⟩ := hes
    cases xs with
    | nil => simp at hp
    | cons y ys =>
      rcases List.mem_cons.mp (neighbours_cons_cons x y ys ▸ hp) with rfl | hp
      · obtain ⟨hnext, -⟩ := hrest
        dsimp only
        omega
      · exact ih hrest hp

/-- What is left of a linked list shows a gap exactly if an entry that was taken out lies
between two that are left. -/
theorem Linked.gap_iff (hes : Linked num own prev n h es) (keep : ε → Bool) :
    (∃ p ∈ neighbours (es.filter keep), num p.2 ≠ num p.1 + 1) ↔
      ∃ i k j, [i, k, j].Sublist es ∧ keep i = true ∧ keep k = false ∧ keep j = true := by
  induction es generalizing n h with
  | nil => simp
  | cons e es ih =>
    obtain ⟨hnum, -, hrest⟩ := hes
    have ih := ih hrest
    cases hkeep : keep e with
    | false =>
      rw [List.filter_cons_of_neg (by simp [hkeep]), ih]
      constructor
      · rintro ⟨i, k, j, hsub, hrests⟩
        exact ⟨i, k, j, hsub.cons e, hrests⟩
      · rintro ⟨i, k, j, hsub, hi, hk, hj⟩
        refine ⟨i, k, j, ?_, hi, hk, hj⟩
        cases hsub with
        | cons _ hsub => exact hsub
        | cons_cons _ hsub =>
          rw [hkeep] at hi
          cases hi
    | true =>
      rw [List.filter_cons_of_pos hkeep]
      cases es with
      | nil =>
        simp only [List.filter_nil, neighbours_singleton, List.not_mem_nil, false_and,
          exists_false, false_iff]
        rintro ⟨i, k, j, hsub, -⟩
        have hlength := hsub.length_le
        simp at hlength
      | cons x xs =>
        obtain ⟨hnext, -, hlater⟩ := hrest
        cases hx : keep x with
        | true =>
          -- the next entry is left: a gap has to come later
          rw [List.filter_cons_of_pos hx, neighbours_cons_cons, List.exists_mem_cons_iff]
          rw [List.filter_cons_of_pos hx] at ih
          rw [ih, or_iff_right (by dsimp only; omega)]
          constructor
          · rintro ⟨i, k, j, hsub, hkept⟩
            exact ⟨i, k, j, hsub.cons e, hkept⟩
          · rintro ⟨i, k, j, hsub, hi, hk, hj⟩
            cases hsub with
            | cons _ hsub => exact ⟨i, k, j, hsub, hi, hk, hj⟩
            | cons_cons _ hsub =>
              refine ⟨x, k, j, ?_, hx, hk, hj⟩
              cases hsub with
              | cons _ hsub => exact hsub.cons_cons x
              | cons_cons _ hsub =>
                rw [hx] at hk
                cases hk
        | false =>
          -- the next entry is taken out: any entry that is left later shows it
          rw [List.filter_cons_of_neg (by simp [hx])]
          cases hleft : xs.filter keep with
          | nil =>
            simp only [neighbours_singleton, List.not_mem_nil, false_and, exists_false, false_iff]
            rintro ⟨i, k, j, hsub, hi, hk, hj⟩
            have hnone := List.filter_eq_nil_iff.mp hleft
            have hmem : j ∈ xs := by
              cases hsub with
              | cons _ hsub =>
                cases hsub with
                | cons _ hsub => exact hsub.subset (by simp)
                | cons_cons _ hsub => exact hsub.subset (by simp)
              | cons_cons _ hsub =>
                cases hsub with
                | cons _ hsub => exact hsub.subset (by simp)
                | cons_cons _ hsub => exact hsub.subset (by simp)
            exact hnone j hmem hj
          | cons y ys =>
            have hy : y ∈ xs.filter keep := hleft ▸ List.mem_cons_self
            obtain ⟨hmem, hkept⟩ := List.mem_filter.mp hy
            have hfar := hlater.lt_num hmem
            refine iff_of_true ⟨(e, y), ?_, ?_⟩ ⟨e, x, y, ?_, hkeep, hx, hkept⟩
            · rw [neighbours_cons_cons]
              exact List.mem_cons_self
            · dsimp only
              omega
            · exact ((List.singleton_sublist.mpr hmem).cons_cons x).cons_cons e

end WslVault.Base.Chain
