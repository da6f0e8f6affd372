import WslVault.ReplicationAgent.Conflict

/-!
# Vector clocks

One write happened before another when its clock is below the other's at every region. The
resolution compares two clocks only at the regions one of them has entries for.
-/

namespace WslVault.ReplicationAgent

open Core Storage

/-- The clock read as a function: regions without an entry are at 0. -/
def seq (clock : VectorClock) (region : String) : Int :=
  (clock.lookup region).getD 0

def regions (clock : VectorClock) : List String :=
  clock.map Prod.fst

variable {clock : VectorClock}

theorem seq_of_notMem {region : String} (h : region ∉ regions clock) :
    seq clock region = 0 := by
  have hnone : clock.lookup region = none := by
    rw [List.lookup_eq_none_iff]
    intro entry hmem
    rw [bne_iff_ne]
    rintro rfl
    exact h (List.mem_map_of_mem hmem)
  rw [seq, hnone, Option.getD_none]

section Nodup

variable (hnodup : (regions clock).Nodup) (P : String → Int → Prop)

include hnodup

theorem seq_of_mem :
    ∀ entry ∈ clock, seq clock entry.1 = entry.2 := by
  induction clock with
  | nil => exact fun _ hmem => absurd hmem List.not_mem_nil
  | cons head tail ih =>
    intro entry hmem
    obtain ⟨region, n⟩ := head
    obtain ⟨hhead, htail⟩ := List.nodup_cons.mp hnodup
    rcases List.mem_cons.mp hmem with rfl | hrest
    · simp [seq]
    · have hne : entry.1 ≠ region :=
        fun heq => hhead (List.mem_map.mpr ⟨entry, hrest, heq⟩)
      have hskip : seq ((region, n) :: tail) entry.1 = seq tail entry.1 := by
        simp [seq, List.lookup_cons, beq_eq_false_iff_ne.mpr hne]
      rw [hskip]
      exact ih htail entry hrest

theorem forall_entries_iff : (∀ entry ∈ clock, P entry.1 entry.2) ↔
      ∀ region ∈ regions clock, P region (seq clock region) := by
  constructor
  · intro h region hmem
    obtain ⟨entry, hentry, rfl⟩ := List.mem_map.mp hmem
    rw [seq_of_mem hnodup entry hentry]
    exact h entry hentry
  · intro h entry hentry
    have := h entry.1 (List.mem_map_of_mem hentry)
    rwa [seq_of_mem hnodup entry hentry] at this

theorem exists_entry_iff : (∃ entry ∈ clock, P entry.1 entry.2) ↔
      ∃ region ∈ regions clock, P region (seq clock region) := by
  have := not_congr (forall_entries_iff hnodup fun region n => ¬ P region n)
  push Not at this
  exact this

/-- A region that only the other clock lists is not compared. -/
theorem dominates_iff {other : VectorClock} :
    dominates clock other = true ↔ (∀ region ∈ regions clock, seq other region ≤ seq clock region) ∧
        ∃ region ∈ regions clock, seq other region < seq clock region := by
  rw [← forall_entries_iff hnodup fun region n => seq other region ≤ n,
    ← exists_entry_iff hnodup fun region n => seq other region < n]
  simp [dominates, seq]

end Nodup

/-! ## Two writes and the two regions that see them -/

structure Stamp where
  region : String
  clock : VectorClock
  updatedAt : Timestamp
  nodup : (regions clock).Nodup

namespace Stamp

/-- What the region of the first write asks when the second reaches it. -/
def context (own remote : Stamp) : ConflictContext where
  localUpdatedAt := some own.updatedAt
  remoteUpdatedAt := remote.updatedAt
  localVectorClock := own.clock
  remoteVectorClock := remote.clock
  localRegion := own.region
  remoteRegion := remote.region

/-- The write happened before the other. -/
def Before (a b : Stamp) : Prop := seq a.clock ≤ seq b.clock ∧ ¬ seq b.clock ≤ seq a.clock

def decision (own remote : Stamp) : Resolution :=
  resolve "vector_clock" (own.context remote)

variable {a b : Stamp}

theorem decision_eq_acceptRemote : a.decision b = .acceptRemote ↔ dominates b.clock a.clock = true ∨
        (dominates a.clock b.clock ≠ true ∧ a.region < b.region) := by
  change resolveVectorClock (a.context b) = .acceptRemote ↔ _
  simp only [resolveVectorClock, context, tiebreak, gt_iff_lt]
  split
  · next hdom => simp [hdom]
  · next hdom =>
    split
    · next hown => simp [hdom, hown]
    · next hown => simp [hdom, hown]

theorem decision_eq_keepLocal : a.decision b = .keepLocal ↔ a.decision b ≠ .acceptRemote := by
  change resolveVectorClock (a.context b) = .keepLocal ↔
    resolveVectorClock (a.context b) ≠ .acceptRemote
  simp only [resolveVectorClock, tiebreak]
  split
  · simp
  · split
    · simp
    · split <;> simp

theorem not_dominates_of_le (h : seq a.clock ≤ seq b.clock) : dominates a.clock b.clock ≠ true := by
  rw [Ne, dominates_iff a.nodup]
  rintro ⟨-, region, -, hlt⟩
  exact absurd (h region) (Int.not_le.mpr hlt)

theorem dominates_of_lt (hle : seq a.clock ≤ seq b.clock) : dominates b.clock a.clock = true ↔
      ∃ region ∈ regions b.clock, seq a.clock region < seq b.clock region := by
  rw [dominates_iff b.nodup]
  exact and_iff_right fun region _ => hle region

/-- The regions never both keep their own write: the names decide one of the two
for the other side, if no clock does. -/
theorem not_both_keepLocal (hregion : a.region ≠ b.region) :
    ¬ (a.decision b = .keepLocal ∧ b.decision a = .keepLocal) := by
  rintro ⟨hab, hba⟩
  rw [decision_eq_keepLocal, Ne, decision_eq_acceptRemote, not_or, not_and] at hab hba
  have hle : a.region ≤ b.region := String.not_lt.mp (hba.2 hab.1)
  have hge : b.region ≤ a.region := String.not_lt.mp (hab.2 hba.1)
  exact hregion (String.le_antisymm hle hge)

/-- The regions swap their writes exactly if each clock dominates the other. -/
theorem both_acceptRemote_iff : (a.decision b = .acceptRemote ∧ b.decision a = .acceptRemote) ↔
      dominates b.clock a.clock = true ∧ dominates a.clock b.clock = true := by
  rw [decision_eq_acceptRemote, decision_eq_acceptRemote]
  constructor
  · rintro ⟨hb | ⟨ha, hlt⟩, ha' | ⟨hb', hlt'⟩⟩
    · exact ⟨hb, ha'⟩
    · exact absurd hb hb'
    · exact absurd ha' ha
    · exact absurd hlt (String.lt_asymm hlt')
  · rintro ⟨hb, ha⟩
    exact ⟨.inl hb, .inl ha⟩

theorem dominate_each_other_iff (hab : ¬ seq a.clock ≤ seq b.clock)
    (hba : ¬ seq b.clock ≤ seq a.clock) :
    (dominates b.clock a.clock = true ∧ dominates a.clock b.clock = true) ↔
      ¬ ∃ region, (region ∈ regions b.clock ∧ seq b.clock region < seq a.clock region) ∨
        (region ∈ regions a.clock ∧ seq a.clock region < seq b.clock region) := by
  rw [dominates_iff b.nodup, dominates_iff a.nodup]
  constructor
  · rintro ⟨⟨hb, -⟩, ha, -⟩ ⟨region, ⟨hmem, hlt⟩ | ⟨hmem, hlt⟩⟩
    · exact absurd (hb region hmem) (Int.not_le.mpr hlt)
    · exact absurd (ha region hmem) (Int.not_le.mpr hlt)
  · intro h
    push Not at h
    have greater : ∀ {c d : Stamp},
        (∀ region ∈ regions d.clock, seq c.clock region ≤ seq d.clock region) →
        ¬ seq c.clock ≤ seq d.clock →
        ∃ region ∈ regions c.clock, seq d.clock region < seq c.clock region := by
      intro c d hown hnle
      obtain ⟨region, hlt⟩ := not_forall.mp hnle
      have hlt : seq d.clock region < seq c.clock region := Int.not_le.mp hlt
      refine ⟨region, ?_, hlt⟩
      by_contra hc
      -- Without an entry in either clock both would read 0.
      by_cases hd : region ∈ regions d.clock
      · exact absurd (hown region hd) (Int.not_le.mpr hlt)
      · rw [seq_of_notMem hc, seq_of_notMem hd] at hlt
        exact absurd hlt (Int.lt_irrefl 0)
    have hb : ∀ region ∈ regions b.clock, seq a.clock region ≤ seq b.clock region :=
      fun region hmem => (h region).1 hmem
    have ha : ∀ region ∈ regions a.clock, seq b.clock region ≤ seq a.clock region :=
      fun region hmem => (h region).2 hmem
    exact ⟨⟨hb, greater ha hba⟩, ha, greater hb hab⟩

end Stamp

/-- The decisions about two writes are the ones the order of their clocks asks
for: a later write is taken, one that is not later is not, and for concurrent
writes the two regions end with the same one. -/
structure Sound (a b : Stamp) : Prop where
  later : a.Before b → a.decision b = .acceptRemote
  notLater : seq b.clock ≤ seq a.clock → a.decision b ≠ .acceptRemote
  concurrent : ¬ seq a.clock ≤ seq b.clock → ¬ seq b.clock ≤ seq a.clock →
    ¬ (a.decision b = .acceptRemote ∧ b.decision a = .acceptRemote) ∧
      ¬ (a.decision b = .keepLocal ∧ b.decision a = .keepLocal)

/-- The decisions follow the order of the clocks exactly if the clock that is ahead lists a region
where it is, or the names of the regions decide for it, and one of two concurrent clocks lists
a region where it is behind. -/
theorem resolve_sound_iff (a b : Stamp) (hregion : a.region ≠ b.region) : Sound a b ↔
      (a.Before b →
        (∃ region ∈ regions b.clock, seq a.clock region < seq b.clock region) ∨
          a.region < b.region) ∧
      (seq b.clock ≤ seq a.clock →
        (∃ region ∈ regions a.clock, seq b.clock region < seq a.clock region) ∨
          b.region < a.region) ∧
      (¬ seq a.clock ≤ seq b.clock → ¬ seq b.clock ≤ seq a.clock →
        ∃ region, (region ∈ regions b.clock ∧ seq b.clock region < seq a.clock region) ∨
          (region ∈ regions a.clock ∧ seq a.clock region < seq b.clock region)) := by
  have hlater : a.Before b → (a.decision b = .acceptRemote ↔
        (∃ region ∈ regions b.clock, seq a.clock region < seq b.clock region) ∨
          a.region < b.region) := by
    intro hlt
    rw [Stamp.decision_eq_acceptRemote, Stamp.dominates_of_lt hlt.1]
    simp [Stamp.not_dominates_of_le hlt.1]
  have hnot : seq b.clock ≤ seq a.clock → (a.decision b ≠ .acceptRemote ↔
        (∃ region ∈ regions a.clock, seq b.clock region < seq a.clock region) ∨
          b.region < a.region) := by
    intro hle
    rw [Ne, Stamp.decision_eq_acceptRemote, or_iff_right (Stamp.not_dominates_of_le hle),
      Ne, Stamp.dominates_of_lt hle, not_and_or, not_not]
    refine or_congr_right ⟨fun h => ?_, String.lt_asymm⟩
    by_contra hge
    exact hregion (String.le_antisymm (String.not_lt.mp hge) (String.not_lt.mp h))
  constructor
  · rintro ⟨later, notLater, concurrent⟩
    refine ⟨fun hlt => (hlater hlt).mp (later hlt), fun hle => (hnot hle).mp (notLater hle),
      fun hab hba => ?_⟩
    have := (concurrent hab hba).1
    rwa [Stamp.both_acceptRemote_iff, Stamp.dominate_each_other_iff hab hba, not_not] at this
  · rintro ⟨later, notLater, concurrent⟩
    refine ⟨fun hlt => (hlater hlt).mpr (later hlt), fun hle => (hnot hle).mpr (notLater hle),
      fun hab hba => ⟨?_, Stamp.not_both_keepLocal hregion⟩⟩
    rw [Stamp.both_acceptRemote_iff, Stamp.dominate_each_other_iff hab hba, not_not]
    exact concurrent hab hba

def firstOfEast : Stamp :=
  ⟨"us-east-1", [("us-east-1", 1)], 0, List.nodup_singleton _⟩

def firstOfWest : Stamp :=
  ⟨"eu-west-1", [("eu-west-1", 1)], 0, List.nodup_singleton _⟩

/-- Each region gives up its own write for the other's. -/
theorem concurrent_first_writes_swap : ¬ seq firstOfEast.clock ≤ seq firstOfWest.clock ∧
      ¬ seq firstOfWest.clock ≤ seq firstOfEast.clock ∧
      firstOfEast.decision firstOfWest = .acceptRemote ∧
      firstOfWest.decision firstOfEast = .acceptRemote ∧ ¬ Sound firstOfEast firstOfWest := by
  have heast : ¬ seq firstOfEast.clock ≤ seq firstOfWest.clock :=
    fun h => absurd (h "us-east-1") (by decide)
  have hwest : ¬ seq firstOfWest.clock ≤ seq firstOfEast.clock :=
    fun h => absurd (h "eu-west-1") (by decide)
  have hboth : firstOfEast.decision firstOfWest = .acceptRemote ∧
      firstOfWest.decision firstOfEast = .acceptRemote := by decide
  exact ⟨heast, hwest, hboth.1, hboth.2, fun hsound => (hsound.concurrent heast hwest).1 hboth⟩

def secondOfEast : Stamp :=
  ⟨"us-east-1", [("us-east-1", 2), ("eu-west-1", 1)], 0, by decide⟩

def secondOfWest : Stamp :=
  ⟨"eu-west-1", [("us-east-1", 1), ("eu-west-1", 2)], 0, by decide⟩

/-- Once each clock has heard of the other region, concurrent writes are
resolved alike on both sides. -/
theorem concurrent_second_writes_agree : Sound secondOfEast secondOfWest := by
  have heast : ¬ seq secondOfEast.clock ≤ seq secondOfWest.clock :=
    fun h => absurd (h "us-east-1") (by decide)
  have hwest : ¬ seq secondOfWest.clock ≤ seq secondOfEast.clock :=
    fun h => absurd (h "eu-west-1") (by decide)
  refine (resolve_sound_iff secondOfEast secondOfWest (by decide)).mpr
    ⟨fun hlt => absurd hlt.1 heast, fun hle => absurd hle hwest, fun _ _ => ?_⟩
  exact ⟨"us-east-1", .inl ⟨by decide, by decide⟩⟩

end WslVault.ReplicationAgent
