import WslVault.Base.Map
import WslVault.Base.Run

/-!
# Requests that overlap on one database

A session is a request in progress with where it stands. Resuming it runs its next
statement, which reads what is committed and what the other sessions hold: the locks they
have and what they have written but not committed. The statement waits, goes on, or ends
the request with what is then committed and a reply. A session may be dropped at any point,
which undoes what it has not committed.
-/

namespace WslVault.Base

inductive Progress (δ φ ρ : Type*) where
  | wait
  | goOn (next : φ)
  | finish (db : δ) (reply : ρ)

/-- The committed state, and the sessions by number. -/
structure Sessions (δ κ φ : Type*) where
  db : δ
  current : AList (fun _ : Nat => κ × φ)

inductive SessionEvent (κ ι : Type*) where
  | arrive (i : Nat) (request : κ)
  | resume (i : Nat) (input : ι)
  | drop (i : Nat)

namespace Sessions

variable {δ κ φ ι ρ : Type*}

def idle (db : δ) : Sessions δ κ φ := ⟨db, ∅⟩

def others (s : Sessions δ κ φ) (i : Nat) : List (κ × φ) :=
  (s.current.erase i).entries.map (·.2)

variable {i : Nat} {x : κ × φ}

theorem mem_others {s : Sessions δ κ φ} :
    x ∈ s.others i ↔ ∃ j, j ≠ i ∧ s.current.lookup j = some x := by
  constructor
  · intro h
    obtain ⟨⟨j, y⟩, hmem, rfl⟩ := List.mem_map.mp h
    exact ⟨j, lookup_of_lookup_erase (AList.mem_lookup_iff.mpr hmem)⟩
  · rintro ⟨j, hji, hj⟩
    have herase : (s.current.erase i).lookup j = some x := by
      rw [lookup_erase_eq, if_neg hji, hj]
    exact List.mem_map.mpr ⟨⟨j, x⟩, AList.mem_lookup_iff.mp herase, rfl⟩

def arrivals (events : List (SessionEvent κ ι)) : List κ :=
  events.filterMap fun
    | .arrive _ request => some request
    | _ => none

/-- An invariant of the committed state, a condition on every session in it, and one on
every two sessions. -/
structure Valid (inv : δ → Prop) (each : δ → κ × φ → Prop) (apart : κ × φ → κ × φ → Prop)
    (s : Sessions δ κ φ) : Prop where
  db : inv s.db
  session : ∀ i x, s.current.lookup i = some x → each s.db x
  pair : ∀ i j x y, i ≠ j → s.current.lookup i = some x → s.current.lookup j = some y → apart x y

variable {inv inv' : δ → Prop} {each each' : δ → κ × φ → Prop}
  {apart : κ × φ → κ × φ → Prop} {s : Sessions δ κ φ}

theorem valid_idle {db : δ} (h : inv db) : Valid inv each apart (idle db : Sessions δ κ φ) where
  db := h
  session := fun i x hx => by simp [idle] at hx
  pair := fun i j x y _ hx => by simp [idle] at hx

section Valid

variable (h : Valid inv each apart s)

include h

theorem Valid.others {y : κ × φ} (hy : y ∈ s.others i) :
    each s.db y := by
  obtain ⟨j, -, hj⟩ := mem_others.mp hy
  exact h.session j y hj

theorem Valid.pair_others {y : κ × φ}
    (hx : s.current.lookup i = some x) (hy : y ∈ s.others i) : apart x y ∧ apart y x := by
  obtain ⟨j, hji, hj⟩ := mem_others.mp hy
  exact ⟨h.pair i j x y hji.symm hx hj, h.pair j i y x hji hj hx⟩

theorem Valid.mono (hinv : inv s.db → inv' s.db)
    (heach : ∀ x, each s.db x → each' s.db x) : Valid inv' each' apart s where
  db := hinv h.db
  session := fun i x hx => heach x (h.session i x hx)
  pair := h.pair

theorem Valid.set (i : Nat) (hx : each s.db x) (hpair : ∀ y ∈ s.others i, apart x y ∧ apart y x) :
    Valid inv each apart ⟨s.db, s.current.insert i x⟩ where
  db := h.db
  session := forall_lookup_insert h.session hx
  pair := by
    intro j l y z hne hj hl
    obtain ⟨rfl, rfl⟩ | ⟨hji, hy⟩ := lookup_insert_cases hj
    · obtain ⟨hli, -⟩ | ⟨hli, hl⟩ := lookup_insert_cases hl
      · exact absurd hli.symm hne
      · exact (hpair z (mem_others.mpr ⟨l, hli, hl⟩)).1
    · obtain ⟨-, rfl⟩ | ⟨-, hl⟩ := lookup_insert_cases hl
      · exact (hpair y (mem_others.mpr ⟨j, hji, hy⟩)).2
      · exact h.pair j l y z hne hy hl

theorem Valid.finish (i : Nat) {db : δ} (hdb : inv' db)
    (heach : ∀ y ∈ s.others i, each' db y) : Valid inv' each' apart ⟨db, s.current.erase i⟩ where
  db := hdb
  session := by
    intro j y hj
    exact heach y (mem_others.mpr ⟨j, lookup_of_lookup_erase hj⟩)
  pair := by
    intro j l y z hne hj hl
    exact h.pair j l y z hne (lookup_of_lookup_erase hj).2 (lookup_of_lookup_erase hl).2

end Valid

def tally (s : Sessions δ κ φ) (p : κ × φ → Bool) : Nat := s.current.entries.countP (p ·.2)

theorem tally_erase (s : Sessions δ κ φ) (db : δ) (i : Nat) (p : κ × φ → Bool) :
    (⟨db, s.current.erase i⟩ : Sessions δ κ φ).tally p = (s.others i).countP p := by
  rw [others, List.countP_map]
  rfl

theorem tally_insert (s : Sessions δ κ φ) (db : δ) (i : Nat) (x : κ × φ) (p : κ × φ → Bool) :
    (⟨db, s.current.insert i x⟩ : Sessions δ κ φ).tally p =
      (s.others i).countP p + if p x then 1 else 0 := by
  rw [others, List.countP_map]
  exact List.countP_cons

theorem tally_of_none (h : s.current.lookup i = none)
    (p : κ × φ → Bool) : s.tally p = (s.others i).countP p := by
  have herase : s.current.erase i = s.current :=
    AList.ext (List.kerase_of_notMem_keys (AList.lookup_eq_none.mp h))
  rw [← s.tally_erase s.db i p, herase]

theorem tally_of_some (h : s.current.lookup i = some x) (p : κ × φ → Bool) :
    s.tally p = (s.others i).countP p + if p x then 1 else 0 := by
  have hperm : (s.current.insert i x).entries.Perm s.current.entries := by
    refine List.lookup_ext (AList.nodupKeys _) (AList.nodupKeys _) fun j y => ?_
    have hlookup : (s.current.insert i x).lookup j = s.current.lookup j := by
      rw [lookup_insert_eq]
      split
      · next hji => rw [hji, h]
      · rfl
    exact iff_of_eq (congrArg (y ∈ ·) hlookup)
  rw [← s.tally_insert s.db i x p]
  exact (hperm.countP_eq _).symm

theorem countP_others_le (s : Sessions δ κ φ) (i : Nat) (p : κ × φ → Bool) :
    (s.others i).countP p ≤ s.tally p := by
  cases h : s.current.lookup i with
  | none => rw [tally_of_none h]
  | some x =>
    rw [tally_of_some h]
    exact Nat.le_add_right _ _

end Sessions

end WslVault.Base
