import WslVault.SecretEngine.Verify.KvStore

/-!
# Version numbers over whole histories

`history k calls` lists the numbers the writes under a key returned, in order. The stored
numbers are a sublist of it, so no number is handed out twice as soon as it is ascending.
-/

namespace WslVault.SecretEngine

open Core Base

def numbersOf (store : KvStore) (k : SecretKey) : List UInt32 :=
  (versionsOf store k).map (·.version)

def returnedNumber (k : SecretKey) : Request × Reply → Option UInt32
  | (.put r, .wrote (.ok (_, n))) => if r.key = k then some n else none
  | _ => none

def history (k : SecretKey) (calls : List Request) : List UInt32 :=
  (trace KvStore.serve ∅ calls).filterMap (returnedNumber k)

theorem history_concat (k : SecretKey) (calls : List Request) (c : Request) :
    history k (calls ++ [c]) = history k calls ++
      (returnedNumber k (c, ((run KvStore.serve ∅ calls).serve c).2)).toList := by
  rw [history, trace_concat, List.filterMap_append]
  rfl

theorem returnedNumber_put (store : KvStore) (k : SecretKey) (r : PutRequest) :
    returnedNumber k (.put r, (store.serve (.put r)).2) =
      if store.CasHolds r ∧ r.key = k then some (store.nextNumber k) else none := by
  rcases store.put_cases r with ⟨hno, ⟨_, herr⟩, -⟩ | ⟨hcas, hok, -⟩
  · simp [KvStore.serve, herr, returnedNumber, hno]
  · by_cases hk : r.key = k
    · simp [KvStore.serve, hok, returnedNumber, hcas, hk]
    · simp [KvStore.serve, hok, returnedNumber, hk]

/-! ## Stored numbers come from the history -/

variable {k : SecretKey} {n : UInt32} {store : KvStore} {e : SecretEntry}

theorem numbersOf_insert (h : e.versions.map (·.version) = numbersOf store k) (k' : SecretKey) :
    numbersOf (store.insert k e) k' = numbersOf store k' := by
  unfold numbersOf
  rw [versionsOf_insert]
  split
  · next hk =>
    subst hk
    exact h
  · rfl

theorem numbersOf_insert_map (hk : store.lookup k = some e) {f : VersionEntry → VersionEntry}
    (hf : ∀ v, (f v).version = v.version) (k' : SecretKey) :
    numbersOf (store.insert k { e with versions := e.versions.map f }) k' = numbersOf store k' := by
  refine numbersOf_insert ?_ k'
  have hvs : versionsOf store k = e.versions := by simp [versionsOf, hk]
  rw [numbersOf, hvs, List.map_map]
  exact List.map_congr_left fun v _ => hf v

theorem change_numbersOf {targets : SecretEntry → List UInt32} {still : VersionEntry → Bool}
    {f : VersionEntry → VersionEntry} (hf : ∀ v, (f v).version = v.version) (t p : String)
    (k : SecretKey) : numbersOf (store.change t p targets still f).1 k = numbersOf store k := by
  unfold KvStore.change
  cases hk : store.lookup ⟨t, p⟩ with
  | none => rfl
  | some e =>
    refine numbersOf_insert_map hk (fun v => ?_) k
    split
    · exact hf v
    · rfl

theorem serve_numbersOf (store : KvStore) (k : SecretKey) (c : Request) :
    (numbersOf (store.serve c).1 k).Sublist
      (numbersOf store k ++ (returnedNumber k (c, (store.serve c).2)).toList) := by
  cases c with
  | get => exact List.sublist_append_left _ _
  | softDelete | destroy =>
    refine (change_numbersOf (fun v => ?_) _ _ k).symm ▸ List.sublist_append_left _ _
    rfl
  | put r =>
    rw [returnedNumber_put]
    rcases store.put_cases r with ⟨-, -, heq⟩ | ⟨hcas, -, heq⟩
    · rw [KvStore.serve, heq, numbersOf_insert (by rw [store.writeEntry_versions]; rfl)]
      exact List.sublist_append_left _ _
    · rw [KvStore.serve, heq, numbersOf, versionsOf_insert]
      by_cases hk : k = r.key
      · subst hk
        rw [if_pos rfl, if_pos ⟨hcas, rfl⟩]
        have hsub : (prune (store.writeEntry r).maxVersions
            (versionsOf store r.key ++ [r.newVersion (store.nextNumber r.key)])).Sublist _ :=
          List.filter_sublist
        simpa [numbersOf] using hsub.map (·.version)
      · rw [if_neg hk]
        exact List.sublist_append_left _ _

theorem stored_sublist_history (k : SecretKey) (calls : List Request) :
    (numbersOf (run KvStore.serve ∅ calls) k).Sublist (history k calls) := by
  induction calls using List.reverseRecOn with
  | nil => exact List.Sublist.refl _
  | append_singleton calls c ih =>
    rw [run_concat, history_concat]
    exact (serve_numbersOf _ k c).trans (ih.append_right _)

theorem currentOf_mem_history (k : SecretKey) (calls : List Request) :
    currentOf (run KvStore.serve ∅ calls) k ∈ history k calls ∨
      currentOf (run KvStore.serve ∅ calls) k = 0 := by
  rcases currentNumber_mem (versionsOf (run KvStore.serve ∅ calls) k) with
    ⟨v, hv, -, hcur⟩ | hzero
  · left
    rw [currentOf, ← hcur]
    exact (stored_sublist_history k calls).subset (List.mem_map_of_mem hv)
  · exact .inr hzero

/-! ## Ascending histories -/

theorem le_getLast {l : List UInt32} (h : l.Pairwise (· < ·))
    (hn : l.getLast? = some n) {m : UInt32} (hm : m ∈ l) : m ≤ n := by
  obtain ⟨init, rfl⟩ := List.getLast?_eq_some_iff.mp hn
  rcases List.mem_append.mp hm with hm | hm
  · exact UInt32.le_of_lt ((List.pairwise_append.mp h).2.2 m hm n List.mem_cons_self)
  · rw [List.mem_singleton.mp hm]
    exact UInt32.le_refl n

variable {calls : List Request}

theorem currentOf_le_getLast (h : (history k calls).Pairwise (· < ·))
    (hn : (history k calls).getLast? = some n) : currentOf (run KvStore.serve ∅ calls) k ≤ n := by
  rcases currentOf_mem_history k calls with hcur | hcur
  · exact le_getLast h hn hcur
  · rw [hcur]
    exact UInt32.zero_le

/-- An ascending history never hands out 0: only after the largest number does
the next one wrap to 0, and that is not above it. -/
theorem history_ne_zero
    (h : (history k calls).Pairwise (· < ·)) (hn : n ∈ history k calls) : n ≠ 0 := by
  induction calls using List.reverseRecOn with
  | nil => exact absurd hn List.not_mem_nil
  | append_singleton calls c ih =>
    rw [history_concat] at h hn
    obtain ⟨hold, -, hlt⟩ := List.pairwise_append.mp h
    rcases List.mem_append.mp hn with hn | hn
    · exact ih hold hn
    · cases c with
      | get => exact absurd hn (by simp [returnedNumber])
      | softDelete => exact absurd hn (by simp [returnedNumber])
      | destroy => exact absurd hn (by simp [returnedNumber])
      | put r =>
        have hlast := fun m hm => hlt m hm n hn
        rw [returnedNumber_put] at hn
        split at hn
        · next hput =>
          rw [Option.toList_some, List.mem_singleton] at hn
          rintro rfl
          rcases currentOf_mem_history k calls with hcur | hcur
          · exact absurd (hlast _ hcur) (by grind)
          · rw [KvStore.nextNumber, hcur] at hn
            exact absurd hn (by decide)
        · exact absurd hn List.not_mem_nil

/-- The version with the last number returned for the key is still stored and
live, and that number is not the largest one. -/
def LastStillLive (k : SecretKey) (calls : List Request) : Prop :=
  ∀ n, (history k calls).getLast? = some n → n + 1 ≠ 0 ∧
    ∃ v ∈ versionsOf (run KvStore.serve ∅ calls) k, v.live = true ∧ v.version = n

theorem le_currentNumber {vs : List VersionEntry}
    (h : (vs.map (·.version)).Pairwise (· < ·)) {v : VersionEntry} (hv : v ∈ vs)
    (hlive : v.live = true) : v.version ≤ currentNumber vs := by
  induction vs using List.reverseRecOn with
  | nil => exact absurd hv List.not_mem_nil
  | append_singleton vs w ih =>
    rw [List.map_append] at h
    obtain ⟨hold, -, hlt⟩ := List.pairwise_append.mp h
    by_cases hw : w.live = true
    · rw [currentNumber_concat hw]
      rcases List.mem_append.mp hv with hv | hv
      · exact UInt32.le_of_lt (hlt _ (List.mem_map_of_mem hv) _ List.mem_cons_self)
      · rw [List.mem_singleton.mp hv]
        exact UInt32.le_refl _
    · have hcur : currentNumber (vs ++ [w]) = currentNumber vs := by simp [currentNumber, hw]
      rw [hcur]
      rcases List.mem_append.mp hv with hv | hv
      · exact ih hold hv
      · rw [List.mem_singleton.mp hv] at hlive
        exact absurd hlive hw

/-- A further write keeps the history ascending exactly when the last number
returned is still live. -/
theorem ascending_next_iff (h : (history k calls).Pairwise (· < ·)) :
    (history k calls ++ [(run KvStore.serve ∅ calls).nextNumber k]).Pairwise (· < ·) ↔
      LastStillLive k calls := by
  have hstored : (numbersOf (run KvStore.serve ∅ calls) k).Pairwise (· < ·) :=
    h.sublist (stored_sublist_history k calls)
  constructor
  · intro hnext n hn
    have hmem : n ∈ history k calls := List.mem_of_getLast? hn
    have hlt : n < currentOf (run KvStore.serve ∅ calls) k + 1 :=
      (List.pairwise_append.mp hnext).2.2 n hmem _ List.mem_cons_self
    have hpos : n ≠ 0 := history_ne_zero h hmem
    have hle := currentOf_le_getLast h hn
    have hcur : currentOf (run KvStore.serve ∅ calls) k = n := by grind
    refine ⟨by grind, ?_⟩
    rcases currentNumber_mem (versionsOf (run KvStore.serve ∅ calls) k) with
      ⟨v, hv, hlive, hnum⟩ | hzero
    · exact ⟨v, hv, hlive, hnum.trans hcur⟩
    · exact absurd (hcur.symm.trans hzero) hpos
  · intro hlast
    refine List.pairwise_append.mpr ⟨h, List.pairwise_singleton _ _, fun m hm n' hn' => ?_⟩
    rw [List.mem_singleton.mp hn', KvStore.nextNumber]
    cases hn : (history k calls).getLast? with
    | none =>
      rw [List.getLast?_eq_none_iff] at hn
      exact absurd hm (hn ▸ List.not_mem_nil)
    | some n =>
      obtain ⟨hmax, v, hv, hlive, hnum⟩ := hlast n hn
      have hge : n ≤ currentOf (run KvStore.serve ∅ calls) k :=
        hnum ▸ le_currentNumber hstored hv hlive
      have hmn : m ≤ n := le_getLast h hn hm
      have hle := currentOf_le_getLast h hn
      grind

/-- After every part of the run, the numbers stored under each key and the
numbers returned for it are strictly ascending. -/
def NeverReused (calls : List Request) : Prop :=
  ∀ pre, pre <+: calls → ∀ k,
    (numbersOf (run KvStore.serve ∅ pre) k).Pairwise (· < ·) ∧ (history k pre).Pairwise (· < ·)

/-- Version numbers ascend over a run exactly when every write that passes its
CAS check finds the last version returned for its key still live, and not
numbered with the largest number. -/
theorem neverReused_iff (calls : List Request) : NeverReused calls ↔
      ∀ pre r, pre ++ [.put r] <+: calls → (run KvStore.serve ∅ pre).CasHolds r →
        LastStillLive r.key pre := by
  constructor
  · intro h pre r hpre hcas
    have hasc := (h pre ((List.prefix_append pre [.put r]).trans hpre) r.key).2
    have hnext := (h _ hpre r.key).2
    rw [history_concat, returnedNumber_put, if_pos ⟨hcas, rfl⟩] at hnext
    exact (ascending_next_iff hasc).mp hnext
  · intro h pre hpre k
    suffices hasc : (history k pre).Pairwise (· < ·) from
      ⟨hasc.sublist (stored_sublist_history k pre), hasc⟩
    induction pre using List.reverseRecOn with
    | nil => exact List.Pairwise.nil
    | append_singleton pre c ih =>
      have hold := ih ((List.prefix_append pre [c]).trans hpre)
      rw [history_concat]
      cases c with
      | get => simpa [returnedNumber] using hold
      | softDelete => simpa [returnedNumber] using hold
      | destroy => simpa [returnedNumber] using hold
      | put r =>
        rw [returnedNumber_put]
        split
        · next hput =>
          obtain ⟨hcas, rfl⟩ := hput
          exact (ascending_next_iff hold).mpr (h pre r hpre hcas)
        · simpa using hold

/-- Write, soft-delete the current version, write again: both writes return 1,
and both versions stay stored under it. -/
theorem neverReused_fails_after_softDelete :
    let calls : List Request :=
      [.put (plainPut 1 "a"), .softDelete 2 "tenant" "app/db" [], .put (plainPut 3 "b")]
    history ⟨"tenant", "app/db"⟩ calls = [1, 1] ∧
    numbersOf (run KvStore.serve ∅ calls) ⟨"tenant", "app/db"⟩ = [1, 1] ∧
    ¬ NeverReused calls := by
  refine ⟨rfl, rfl, fun h => ?_⟩
  have hhist := (h _ (List.prefix_refl _) ⟨"tenant", "app/db"⟩).2
  exact absurd hhist (by decide)

end WslVault.SecretEngine
