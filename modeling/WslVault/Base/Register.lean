import Mathlib.Data.List.Basic
import Mathlib.Order.Lattice

/-!
# Last-writer-wins registers

A register is offered values with stamps from a linear order, and is to hold the one with
the greatest stamp of all it has seen (`Latest`). What is held then does not depend on the
order of the offers or on repetitions (`Latest.eq_of_same`).
-/

namespace WslVault.Base

variable {α κ : Type*} [LinearOrder κ] {stamp : α → κ}

/-- The register holds the latest of the values seen, or nothing was seen. -/
def Latest (stamp : α → κ) (seen : List α) : Option α → Prop
  | none => seen = []
  | some a => a ∈ seen ∧ ∀ b ∈ seen, stamp b ≤ stamp a

namespace Latest

variable {seen seen' : List α} {held held' : Option α} {a b : α}

theorem nil : Latest stamp [] none := rfl

theorem mem (h : Latest stamp seen held) (ha : a ∈ held) : a ∈ seen := by
  cases held with
  | none => cases ha
  | some b =>
    cases ha
    exact h.1

theorem le_of_mem (h : Latest stamp seen held) (hb : b ∈ seen) : ∃ a ∈ held, stamp b ≤ stamp a := by
  cases held with
  | none => exact absurd (h ▸ hb) List.not_mem_nil
  | some a => exact ⟨a, rfl, h.2 b hb⟩

theorem take (h : Latest stamp seen held) (hle : ∀ b ∈ held, stamp b ≤ stamp a) :
    Latest stamp (seen ++ [a]) (some a) := by
  refine ⟨List.mem_append_right seen List.mem_cons_self, fun b hb => ?_⟩
  rcases List.mem_append.mp hb with hb | hb
  · obtain ⟨c, hc, hbc⟩ := h.le_of_mem hb
    exact le_trans hbc (hle c hc)
  · rw [List.mem_singleton.mp hb]

theorem pass (h : Latest stamp seen (some b)) (hle : stamp a ≤ stamp b) :
    Latest stamp (seen ++ [a]) (some b) := by
  refine ⟨List.mem_append_left [a] h.1, fun c hc => ?_⟩
  rcases List.mem_append.mp hc with hc | hc
  · exact h.2 c hc
  · rw [List.mem_singleton.mp hc]
    exact hle

/-- The value with the greatest stamp is the one held, when stamps tell the
values apart. -/
theorem eq_some (h : Latest stamp seen held) (ha : a ∈ seen) (hmax : ∀ b ∈ seen, stamp b ≤ stamp a)
    (hinj : ∀ x ∈ seen, ∀ y ∈ seen, stamp x = stamp y → x = y) : held = some a := by
  cases held with
  | none => exact absurd (h ▸ ha) List.not_mem_nil
  | some b => rw [hinj b h.1 a ha (le_antisymm (hmax b h.1) (h.2 a ha))]

theorem eq_of_same (h : Latest stamp seen held) (h' : Latest stamp seen' held')
    (hsame : ∀ x, x ∈ seen ↔ x ∈ seen')
    (hinj : ∀ x ∈ seen, ∀ y ∈ seen, stamp x = stamp y → x = y) : held = held' := by
  cases held' with
  | none =>
    cases held with
    | none => rfl
    | some a => exact absurd (h' ▸ (hsame a).mp h.1) List.not_mem_nil
  | some b =>
    exact h.eq_some ((hsame b).mpr h'.1) (fun c hc => h'.2 c ((hsame c).mp hc)) hinj

end Latest

end WslVault.Base
