import Mathlib.Data.List.MinMax
import Mathlib.Data.List.Sort

/-!
# Reading a feed by position

Rows with a key are appended to a feed, and a reader asks for the rows it wants in batches,
in the order of their keys. It keeps a position, the number of rows it was given, which is
turned into the key of the row at that place among all rows (`batch`).

The position must not run ahead of the rows given. `Covered` says that it does not: below a
key that a given row has reached, every wanted row was given, and the position is that of a
row no later than this key.
-/

namespace WslVault.Base

variable {α κ : Type*} [LinearOrder κ] {x : α} {w : κ}

/-- `ORDER BY key`. The rows of one key come in any order, given by `tie`. -/
def orderBy (key : α → κ) (tie : α → Nat) (rows : List α) : List α :=
  rows.insertionSort fun a b => key a < key b ∨ (key a = key b ∧ tie a ≤ tie b)

def upTo (key : α → κ) (rows : List α) (w : κ) : Nat := rows.countP (key · ≤ w)

section OrderBy

variable {key : α → κ} {tie : α → Nat} {rows : List α} {i : Nat}

variable (key tie rows) in
theorem perm_orderBy : (orderBy key tie rows).Perm rows := List.perm_insertionSort _ rows

variable (key tie) in
theorem mem_orderBy : x ∈ orderBy key tie rows ↔ x ∈ rows :=
  (perm_orderBy key tie rows).mem_iff

variable (key tie rows) in
theorem pairwise_orderBy : (orderBy key tie rows).Pairwise (key · ≤ key ·) := by
  let r : α → α → Prop := fun a b => key a < key b ∨ (key a = key b ∧ tie a ≤ tie b)
  have htotal : Std.Total r := ⟨fun a b => by grind⟩
  have htrans : IsTrans α r := ⟨fun a b c => by grind⟩
  have hsorted : (orderBy key tie rows).Pairwise r := List.pairwise_insertionSort r rows
  exact hsorted.imp fun h => h.elim le_of_lt fun h => le_of_eq h.1

theorem key_getElem_mono {j : Nat} (hij : i ≤ j) (hj : j < (orderBy key tie rows).length) :
    key ((orderBy key tie rows)[i]) ≤ key ((orderBy key tie rows)[j]) := by
  rcases Nat.lt_or_eq_of_le hij with hlt | rfl
  · exact List.pairwise_iff_getElem.mp (pairwise_orderBy key tie rows) i j (hlt.trans hj) hj hlt
  · exact le_refl _

theorem lt_upTo {a : α} (h : (orderBy key tie rows)[i]? = some a) : i < upTo key rows (key a) := by
  obtain ⟨hi, rfl⟩ := List.getElem?_eq_some_iff.mp h
  have hle : ∀ x ∈ (orderBy key tie rows).take (i + 1),
      decide (key x ≤ key (orderBy key tie rows)[i]) = true := by
    intro x hx
    obtain ⟨j, hj, rfl⟩ := List.mem_take_iff_getElem.mp hx
    rw [decide_eq_true_iff]
    exact key_getElem_mono (by omega) hi
  calc i < ((orderBy key tie rows).take (i + 1)).length := by
        rw [List.length_take]
        omega
    _ = ((orderBy key tie rows).take (i + 1)).countP (key · ≤ key (orderBy key tie rows)[i]) :=
        (List.countP_eq_length.mpr hle).symm
    _ ≤ (orderBy key tie rows).countP (key · ≤ key (orderBy key tie rows)[i]) :=
        (List.take_sublist _ _).countP_le
    _ = upTo key rows (key (orderBy key tie rows)[i]) := (perm_orderBy key tie rows).countP_eq _

variable (tie) in
theorem exists_of_lt_upTo (h : i < upTo key rows w) :
    ∃ a, (orderBy key tie rows)[i]? = some a ∧ key a ≤ w := by
  have hcount : i < (orderBy key tie rows).countP (key · ≤ w) := by
    rw [(perm_orderBy key tie rows).countP_eq]
    exact h
  have hi : i < (orderBy key tie rows).length := lt_of_lt_of_le hcount List.countP_le_length
  refine ⟨_, List.getElem?_eq_getElem hi, not_lt.mp fun hlt => ?_⟩
  -- otherwise only the rows before this place could be up to `w`
  have hdrop : ((orderBy key tie rows).drop i).countP (key · ≤ w) = 0 := by
    rw [List.countP_eq_zero]
    intro x hx
    obtain ⟨j, hj, rfl⟩ := List.mem_drop_iff_getElem.mp hx
    rw [decide_eq_true_iff, not_le]
    exact lt_of_lt_of_le hlt (key_getElem_mono (Nat.le_add_right i j) (by omega))
  rw [← List.take_append_drop i (orderBy key tie rows), List.countP_append, hdrop] at hcount
  have htake : ((orderBy key tie rows).take i).countP (key · ≤ w) ≤ i :=
    List.countP_le_length.trans (List.length_take_le _ _)
  omega

end OrderBy

namespace Feed

/-- The key that a position stands for; past the last row it is `start`. -/
def floor (key : α → κ) (tie : α → Nat) (start : κ) (rows : List α) (position : Nat) : κ :=
  ((orderBy key tie rows)[position]?.map key).getD start

def above (key : α → κ) (tie : α → Nat) (wanted : α → Bool) (limit : Nat) (rows : List α)
    (w : κ) : List α :=
  (orderBy key tie (rows.filter fun x => wanted x && decide (w < key x))).take limit

def batch (key : α → κ) (tie : α → Nat) (start : κ) (wanted : α → Bool) (limit : Nat)
    (rows : List α) (position : Nat) : List α :=
  above key tie wanted limit rows (floor key tie start rows position)

variable {key : α → κ} {tie : α → Nat} {start : κ} {wanted : α → Bool} {limit : Nat}
  {rows given : List α} {position : Nat}

theorem mem_above (h : x ∈ above key tie wanted limit rows w) :
    x ∈ rows ∧ wanted x = true ∧ w < key x := by
  have hmem := (mem_orderBy key tie).mp (List.mem_of_mem_take h)
  simpa using hmem

variable (tie limit) in
/-- A wanted row above the key that was not given comes after all that were. -/
theorem above_complete (hx : x ∈ rows) (hwanted : wanted x = true)
    (hw : w < key x) : x ∈ above key tie wanted limit rows w ∨
      ((above key tie wanted limit rows w).length = limit ∧
        ∀ b ∈ above key tie wanted limit rows w, key b ≤ key x) := by
  have hmem : x ∈ orderBy key tie (rows.filter fun x => wanted x && decide (w < key x)) := by
    rw [mem_orderBy]
    simp [hx, hwanted, hw]
  rw [← List.take_append_drop limit (orderBy key tie _), List.mem_append] at hmem
  rcases hmem with hmem | hmem
  · exact .inl hmem
  · have hlimit : limit < (orderBy key tie
        (rows.filter fun x => wanted x && decide (w < key x))).length := by
      have hpos := List.length_pos_of_mem hmem
      rw [List.length_drop] at hpos
      omega
    refine .inr ⟨List.length_take_of_le hlimit.le, fun b hb => ?_⟩
    have hsorted := pairwise_orderBy key tie
      (rows.filter fun x => wanted x && decide (w < key x))
    rw [← List.take_append_drop limit (orderBy key tie _), List.pairwise_append] at hsorted
    exact hsorted.2.2 b hb x hmem

theorem upTo_add_between {f : κ} (hle : f ≤ w) :
    upTo key rows f + rows.countP (fun x => decide (f < key x) && decide (key x ≤ w)) =
      upTo key rows w := by
  induction rows with
  | nil => rfl
  | cons x rows ih =>
    simp only [upTo, List.countP_cons] at ih ⊢
    by_cases hf : key x ≤ f
    · simp [hf, hf.trans hle, not_lt.mpr hf]
      omega
    · simp [hf, not_le.mp hf]
      omega

theorem upTo_add_length {f : κ} (hle : f ≤ w)
    (h : ∀ b ∈ above key tie wanted limit rows f, key b ≤ w) :
    upTo key rows f + (above key tie wanted limit rows f).length ≤ upTo key rows w := by
  have hbetween : ∀ b ∈ above key tie wanted limit rows f,
      (decide (f < key b) && decide (key b ≤ w)) = true := by
    intro b hb
    simp [(mem_above hb).2.2, h b hb]
  have hcount : (above key tie wanted limit rows f).length ≤
      rows.countP (fun x => decide (f < key x) && decide (key x ≤ w)) := by
    rw [← List.countP_eq_length.mpr hbetween]
    refine le_trans (List.take_sublist _ _).countP_le ?_
    rw [(perm_orderBy key tie _).countP_eq]
    exact List.filter_sublist.countP_le
  rw [← upTo_add_between hle]
  omega

/-! ## Positions that are behind what was given -/

variable (key wanted rows given position) in
/-- The reader has not begun, or some row given is at a key up to which every
wanted row was given and the position is that of a row. -/
def Covered : Prop :=
  position = 0 ∨ ∃ d ∈ given, position < upTo key rows (key d) ∧
    ∀ x ∈ rows, wanted x = true → key x ≤ key d → x ∈ given

def FirstUnwanted (key : α → κ) (wanted : α → Bool) (rows : List α) : Prop :=
  ∀ x ∈ rows, (∀ y ∈ rows, key x ≤ key y) → wanted x = false

def Distinct (key : α → κ) (wanted : α → Bool) (rows : List α) : Prop :=
  ∀ x ∈ rows, ∀ y ∈ rows, wanted x = true → wanted y = true → key x = key y → x = y

namespace Covered

variable (h : Covered key wanted rows given position)

include h

/-- A wanted row may be appended when it is later than all that was given. -/
theorem append (hx : wanted x = true → ∀ d ∈ given, key d < key x) :
    Covered key wanted (rows ++ [x]) given position := by
  refine h.imp_right ?_
  rintro ⟨d, hd, hlt, hgiven⟩
  refine ⟨d, hd, ?_, fun y hy hwanted hle => ?_⟩
  · rw [upTo, List.countP_append]
    exact Nat.lt_add_right _ hlt
  · rcases List.mem_append.mp hy with hy | hy
    · exact hgiven y hy hwanted hle
    · rw [List.mem_singleton.mp hy] at hwanted hle
      exact absurd hle (not_le.mpr (hx hwanted d hd))

theorem give (more : List α) :
    Covered key wanted rows (given ++ more) position := by
  refine h.imp_right ?_
  rintro ⟨d, hd, hlt, hgiven⟩
  exact ⟨d, List.mem_append_left more hd, hlt,
    fun x hx hwanted hle => List.mem_append_left more (hgiven x hx hwanted hle)⟩

variable (hfirst : position = 0 → FirstUnwanted key wanted rows)
include hfirst

variable (tie start) in
theorem floor_spec (hrows : rows ≠ []) :
    position < upTo key rows (floor key tie start rows position) ∧
      ∀ x ∈ rows, wanted x = true → key x ≤ floor key tie start rows position → x ∈ given := by
  have hfloor : ∀ a, (orderBy key tie rows)[position]? = some a →
      floor key tie start rows position = key a := by
    intro a ha
    rw [floor, ha]
    rfl
  rcases h with rfl | ⟨d, hd, hlt, hgiven⟩
  · have hpos : 0 < (orderBy key tie rows).length := by
      rw [(perm_orderBy key tie rows).length_eq]
      exact List.length_pos_of_ne_nil hrows
    have ha := List.getElem?_eq_getElem hpos
    rw [hfloor _ ha]
    refine ⟨lt_upTo ha, fun x hx hwanted hle => ?_⟩
    have hleast : ∀ y ∈ rows, key x ≤ key y := by
      intro y hy
      obtain ⟨j, hj, rfl⟩ := List.getElem_of_mem ((mem_orderBy key tie).mpr hy)
      exact hle.trans (key_getElem_mono (Nat.zero_le j) hj)
    rw [hfirst rfl x hx hleast] at hwanted
    cases hwanted
  · obtain ⟨a, ha, hle⟩ := exists_of_lt_upTo tie hlt
    rw [hfloor a ha]
    exact ⟨lt_upTo ha, fun x hx hwanted hxa => hgiven x hx hwanted (hxa.trans hle)⟩

/-- The reader moves its position over the rows it is given. -/
theorem advance (hdistinct : Distinct key wanted rows) :
    Covered key wanted rows (given ++ batch key tie start wanted limit rows position)
      (position + (batch key tie start wanted limit rows position).length) := by
  cases hmax : (batch key tie start wanted limit rows position).argmax key with
  | none =>
    rw [List.argmax_eq_none.mp hmax]
    exact h.give []
  | some d =>
    have hd := List.argmax_mem hmax
    have hle : ∀ b ∈ batch key tie start wanted limit rows position, key b ≤ key d :=
      fun b hb => List.le_of_mem_argmax hb hmax
    obtain ⟨hdrows, hdwanted, hdfloor⟩ := mem_above hd
    obtain ⟨hlt, hgiven⟩ := h.floor_spec tie start hfirst (List.ne_nil_of_mem hdrows)
    refine .inr ⟨d, List.mem_append_right given hd, ?_, fun x hx hwanted hxd => ?_⟩
    · have hcount := upTo_add_length hdfloor.le hle
      rw [batch]
      omega
    · rw [List.mem_append]
      by_cases hxfloor : key x ≤ floor key tie start rows position
      · exact .inl (hgiven x hx hwanted hxfloor)
      · rcases above_complete tie limit hx hwanted (not_le.mp hxfloor) with hmem | ⟨-, hlast⟩
        · exact .inr hmem
        · rw [hdistinct x hx d hdrows hwanted hdwanted (le_antisymm hxd (hlast d hd))]
          exact .inr hd

/-- A reader that is given nothing has been given all it wants. -/
theorem complete (hlimit : 0 < limit)
    (hnone : batch key tie start wanted limit rows position = []) (hx : x ∈ rows)
    (hwanted : wanted x = true) : x ∈ given := by
  obtain ⟨-, hgiven⟩ := h.floor_spec tie start hfirst (List.ne_nil_of_mem hx)
  refine hgiven x hx hwanted (not_lt.mp fun hlt => ?_)
  have habove := above_complete tie limit hx hwanted hlt
  rw [batch] at hnone
  rw [hnone] at habove
  rcases habove with hmem | ⟨hlen, -⟩
  · cases hmem
  · rw [← hlen] at hlimit
    exact absurd hlimit (Nat.lt_irrefl 0)

end Covered

end Feed

end WslVault.Base
