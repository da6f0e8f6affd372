import Mathlib.Data.List.AList

/-!
# Finite maps

What Mathlib's `AList` lacks for reading a map after an update: the value under
any key after an insertion or a removal, as one equation.
-/

namespace WslVault.Base

variable {α : Type*} [DecidableEq α] {β : Type*}

theorem lookup_insert_eq (m : AList (fun _ : α => β)) (a b : α) (v : β) :
    (m.insert a v).lookup b = if b = a then some v else m.lookup b := by
  by_cases h : b = a
  · subst h
    rw [if_pos rfl, AList.lookup_insert]
  · rw [if_neg h, AList.lookup_insert_ne h]

theorem lookup_erase_eq (m : AList (fun _ : α => β)) (a b : α) :
    (m.erase a).lookup b = if b = a then none else m.lookup b := by
  by_cases h : b = a
  · subst h
    rw [if_pos rfl, AList.lookup_erase]
  · rw [if_neg h, AList.lookup_erase_ne h]

variable {m : AList (fun _ : α => β)} {a : α} {v : β}

theorem lookup_erase_eq_none {b : α} (h : m.lookup b = none)
    (a : α) : (m.erase a).lookup b = none := by
  rw [lookup_erase_eq, h, ite_self]

theorem lookup_of_lookup_erase {b : α}
    (h : (m.erase a).lookup b = some v) : b ≠ a ∧ m.lookup b = some v := by
  rw [lookup_erase_eq] at h
  split at h
  · cases h
  · next hne => exact ⟨hne, h⟩

theorem lookup_insert_cases {b : α} {w : β} (h : (m.insert a v).lookup b = some w) :
    b = a ∧ w = v ∨ b ≠ a ∧ m.lookup b = some w := by
  rw [lookup_insert_eq] at h
  split at h
  · next heq => exact .inl ⟨heq, (Option.some.inj h).symm⟩
  · next hne => exact .inr ⟨hne, h⟩

theorem mem_of_lookup (h : m.lookup a = some v) : a ∈ m :=
  AList.lookup_isSome.mp (Option.isSome_of_eq_some h)

theorem forall_lookup_insert {p : α → β → Prop}
    (hold : ∀ b w, m.lookup b = some w → p b w) (hnew : p a v) (b : α) (w : β)
    (h : (m.insert a v).lookup b = some w) : p b w := by
  obtain ⟨rfl, rfl⟩ | ⟨-, h⟩ := lookup_insert_cases h
  · exact hnew
  · exact hold b w h

def retain (p : α → β → Bool) (m : AList (fun _ : α => β)) : AList (fun _ : α => β) where
  entries := m.entries.filter fun e => p e.1 e.2
  nodupKeys := m.nodupKeys.sublist List.filter_sublist

theorem lookup_retain_eq_some {p : α → β → Bool} :
    (retain p m).lookup a = some v ↔ m.lookup a = some v ∧ p a v = true := by
  have hmem : ∀ m : AList (fun _ : α => β), m.lookup a = some v ↔ ⟨a, v⟩ ∈ m.entries :=
    fun m => AList.mem_lookup_iff
  rw [hmem, hmem]
  exact List.mem_filter

end WslVault.Base
