import Mathlib.Data.List.Find
import WslVault.SecretEngine.Verify.PgStore
import WslVault.SecretEngine.Verify.VersionNumbers

/-!
# Rows and entries

On ascending numbers both backends resolve a missing version alike, and find the same version
by its number. Their retention rules differ: KvStore prunes by count, the stored function by
number.
-/

namespace WslVault.SecretEngine

open Core Base Storage

/-- In an ascending list, what is left after the last `m` elements are cut off
has at least `m` elements above it. -/
theorem mem_take_iff_le_countP {l : List UInt32} (h : l.Pairwise (· < ·)) (m : Nat) (t : UInt32) :
    t ∈ l.take (l.length - m) ↔ t ∈ l ∧ m ≤ l.countP (t < ·) := by
  have happ := List.take_append_drop (l.length - m) l
  have hcount : l.countP (t < ·) =
      (l.take (l.length - m)).countP (t < ·) + (l.drop (l.length - m)).countP (t < ·) := by
    rw [← List.countP_append, happ]
  rw [← happ] at h
  obtain ⟨-, -, hlt⟩ := List.pairwise_append.mp h
  constructor
  · intro ht
    have habove : (l.drop (l.length - m)).countP (t < ·) = (l.drop (l.length - m)).length :=
      List.countP_eq_length.mpr fun u hu => decide_eq_true (hlt t ht u hu)
    have hpos := List.length_pos_of_mem ht
    rw [List.length_take] at hpos
    rw [List.length_drop] at habove
    exact ⟨List.mem_of_mem_take ht, by omega⟩
  · rintro ⟨ht, hm⟩
    by_contra hout
    have hdrop : t ∈ l.drop (l.length - m) := by
      rw [← happ, List.mem_append] at ht
      exact ht.resolve_left hout
    have hbelow : (l.take (l.length - m)).countP (t < ·) = 0 :=
      List.countP_eq_zero.mpr fun u hu hlt' =>
        UInt32.lt_asymm (hlt u hu t hdrop) (of_decide_eq_true hlt')
    have hself : (l.drop (l.length - m)).countP (t < ·) < (l.drop (l.length - m)).length := by
      refine Nat.lt_of_le_of_ne List.countP_le_length fun heq => ?_
      have := List.countP_eq_length.mp heq t hdrop
      exact UInt32.lt_irrefl t (of_decide_eq_true this)
    rw [List.length_drop] at hself
    omega

theorem length_lt_of_ascending {l : List UInt32} (h : l.Pairwise (· < ·))
    (hmax : ∀ n ∈ l, n.toNat ≤ 2147483647) : l.length < 4294967296 := by
  have hnodup : (l.map (·.toNat)).Nodup := by
    rw [List.Nodup, List.pairwise_map]
    exact h.imp fun hlt => Nat.ne_of_lt (UInt32.lt_iff_toNat_lt.mp hlt)
  have hsub : l.map (·.toNat) ⊆ List.range 2147483648 := by
    intro n hn
    obtain ⟨m, hm, rfl⟩ := List.mem_map.mp hn
    have := hmax m hm
    exact List.mem_range.mpr (by omega)
  have hlen := (List.subperm_of_subset hnodup hsub).length_le
  rw [List.length_map, List.length_range] at hlen
  omega

def newerCount (vs : List VersionEntry) (n : UInt32) : Nat := (liveVersions vs).countP (n < ·)

variable {m : UInt32} {vs : List VersionEntry}

theorem pruneTargets_eq_take (hlen : (liveVersions vs).length < 4294967296) :
    pruneTargets m vs = (liveVersions vs).take ((liveVersions vs).length - m.toNat) := by
  have hcount : (liveCount vs).toNat = (liveVersions vs).length :=
    UInt32.toNat_ofNat_of_lt' hlen
  unfold pruneTargets
  split
  · next hgt =>
    rw [UInt32.toNat_sub_of_le _ _ (UInt32.le_of_lt hgt), hcount]
  · next hle =>
    have : (liveCount vs).toNat ≤ m.toNat := UInt32.le_iff_toNat_le.mp (UInt32.not_lt.mp hle)
    rw [Nat.sub_eq_zero_of_le (by omega), List.take_zero]

/-- On an ascending list pruning keeps the destroyed versions and the newest
undestroyed ones, as many as the limit says. -/
theorem prune_eq_filter (hasc : (vs.map (·.version)).Pairwise (· < ·))
    (hlen : (liveVersions vs).length < 4294967296) :
    prune m vs = vs.filter fun v => v.destroyed || decide (newerCount vs v.version < m.toNat) := by
  have hlive : (liveVersions vs).Pairwise (· < ·) :=
    hasc.sublist (List.filter_sublist.map _)
  refine List.filter_congr fun v hv => ?_
  have htarget : v.version ∈ pruneTargets m vs ↔
      v.destroyed = false ∧ m.toNat ≤ newerCount vs v.version := by
    rw [pruneTargets_eq_take hlen, mem_take_iff_le_countP hlive]
    refine and_congr_left fun _ => ?_
    constructor
    · intro hmem
      obtain ⟨w, hw, heq⟩ := List.mem_map.mp hmem
      obtain ⟨hw, hd⟩ := List.mem_filter.mp hw
      rw [← List.inj_on_of_nodup_map (hasc.imp UInt32.ne_of_lt) hw hv heq]
      simpa using hd
    · intro hd
      exact List.mem_map_of_mem (List.mem_filter.mpr ⟨hv, by simp [hd]⟩)
  by_cases hmem : v.version ∈ pruneTargets m vs
  · obtain ⟨hd, hcount⟩ := htarget.mp hmem
    simp [hmem, hd, hcount]
  · have hkept := mt htarget.mpr hmem
    cases hd : v.destroyed with
    | true => simp [hmem]
    | false =>
      have : newerCount vs v.version < m.toNat := by
        by_contra hge
        exact hkept ⟨hd, by omega⟩
      simp [hmem, this]

/-! ## Rows and entries -/

theorem asU32_le_asU32 {a b : Int} (ha : 0 ≤ a) (ha' : a ≤ 2147483647) (hb : 0 ≤ b)
    (hb' : b ≤ 2147483647) : asU32 a ≤ asU32 b ↔ a ≤ b := by
  have h₁ := toNat_asU32 a
  have h₂ := toNat_asU32 b
  rw [UInt32.le_iff_toNat_le]
  omega

theorem asU32_lt_asU32 {a b : Int} (ha : 0 ≤ a) (ha' : a ≤ 2147483647) (hb : 0 ≤ b)
    (hb' : b ≤ 2147483647) : asU32 a < asU32 b ↔ a < b := by
  have h₁ := toNat_asU32 a
  have h₂ := toNat_asU32 b
  rw [UInt32.lt_iff_toNat_lt]
  omega

theorem asU32_asI32_add_one (n : UInt32) : asU32 (asI32 n + 1) = n + 1 := by
  have hn : n.toNat < 4294967296 := n.toNat_lt
  have h := toNat_asU32 (asI32 n + 1)
  have hcast : asI32 n = n.toNat ∨ asI32 n = n.toNat - 4294967296 := by
    unfold asI32
    split
    · exact .inl rfl
    · exact .inr rfl
  apply UInt32.toNat_inj.mp
  rw [UInt32.toNat_add, UInt32.toNat_one]
  omega

@[simp] theorem entryOfRow_live (v : VersionRow) : (entryOfRow v).live = v.live := Bool.and_comm _ _

@[simp] theorem entryOfRow_version (v : VersionRow) :
    (entryOfRow v).version = asU32 v.version := rfl

@[simp] theorem entryOfRow_destroyed (v : VersionRow) :
    (entryOfRow v).destroyed = v.destroyed := rfl

variable {rows : List VersionRow}

section Rows

variable {db : Db} {sid : Uuid} {v : VersionRow}

theorem row_range (h : db.lifecycle.Inv) (hv : v ∈ db.rowsOf sid) :
    1 ≤ v.version ∧ v.version ≤ 2147483647 :=
  h.number_range (n := v.number) (List.mem_map_of_mem (Db.mem_rowsOf.mp hv).1)

theorem asU32_version_eq_iff (h : db.lifecycle.Inv) (hv : v ∈ db.rowsOf sid)
    (n : UInt32) : asU32 v.version = n ↔ v.version = asI32 n := by
  obtain ⟨hpos, hmax⟩ := row_range h hv
  constructor
  · rintro rfl
    exact (asI32_asU32 (by omega) hmax).symm
  · intro heq
    rw [heq, asU32_asI32]

theorem ascending_entries (hrange : ∀ v ∈ rows, 1 ≤ v.version ∧ v.version ≤ 2147483647)
    (hasc : (rows.map (·.version)).Pairwise (· < ·)) :
    ((rows.map entryOfRow).map (·.version)).Pairwise (· < ·) := by
  rw [List.map_map, List.pairwise_map]
  rw [List.pairwise_map] at hasc
  refine hasc.imp_of_mem fun {v w} hv hw hlt => ?_
  obtain ⟨hv₁, hv₂⟩ := hrange v hv
  obtain ⟨hw₁, hw₂⟩ := hrange w hw
  exact (asU32_lt_asU32 (by omega) hv₂ (by omega) hw₂).mpr hlt

theorem currentNumber_entries (h : db.lifecycle.Inv)
    (hasc : ((db.rowsOf sid).map (·.version)).Pairwise (· < ·)) :
    currentNumber ((db.rowsOf sid).map entryOfRow) = SecretStore.latestLiveVersion db sid := by
  have hle : ∀ w ∈ db.rowsOf sid, w.live = true →
      asU32 w.version ≤ currentNumber ((db.rowsOf sid).map entryOfRow) := by
    intro w hw hlive
    exact le_currentNumber (ascending_entries (fun _ => row_range h) hasc)
      (List.mem_map_of_mem hw) (by simpa using hlive)
  rcases currentNumber_mem ((db.rowsOf sid).map entryOfRow) with ⟨e, he, hlive, hnum⟩ | hzero
  · obtain ⟨v, hv, rfl⟩ := List.mem_map.mp he
    obtain ⟨hvmem, hvid⟩ := Db.mem_rowsOf.mp hv
    rw [entryOfRow_live] at hlive
    rw [← hnum, ← hvid]
    refine (latestLiveVersion_of_newest hvmem hlive fun w hw hwid hwlive => ?_).symm
    have hwrow : w ∈ db.rowsOf sid := Db.mem_rowsOf.mpr ⟨hw, hwid.trans hvid⟩
    have hcmp := hle w hwrow hwlive
    rw [← hnum, entryOfRow_version] at hcmp
    obtain ⟨hv₁, hv₂⟩ := row_range h hv
    obtain ⟨hw₁, hw₂⟩ := row_range h hwrow
    exact (asU32_le_asU32 (by omega) hw₂ (by omega) hv₂).mp hcmp
  · rw [hzero]
    refine (latestLiveVersion_of_none fun w hw hwid => ?_).symm
    have hwrow : w ∈ db.rowsOf sid := Db.mem_rowsOf.mpr ⟨hw, hwid⟩
    by_contra hlive
    have hcmp := hle w hwrow (by simpa using hlive)
    rw [hzero] at hcmp
    obtain ⟨hw₁, hw₂⟩ := row_range h hwrow
    have := toNat_asU32 w.version
    have := UInt32.le_iff_toNat_le.mp hcmp
    rw [UInt32.toNat_zero] at this
    omega

theorem find?_entries (h : db.lifecycle.Inv) (n : UInt32) :
    ((db.rowsOf sid).map entryOfRow).find? (·.version == n) =
      (db.versions.get? (sid, asI32 n)).map entryOfRow := by
  have hget : db.versions.get? (sid, asI32 n) =
      (db.rowsOf sid).find? fun v => v.version == asI32 n := by
    rw [Table.get?, Db.rowsOf, Table.select, List.find?_filter]
    congr 1
    funext v
    simp [VersionRow.versionKey, Prod.ext_iff, Bool.decide_and]
  rw [hget, List.find?_map]
  congr 1
  refine List.find?_congr fun v hv => ?_
  have := asU32_version_eq_iff h hv n
  by_cases heq : asU32 v.version = n
  · simp [this.mp heq, asU32_asI32]
  · have hne : v.version ≠ asI32 n := fun h' => heq (this.mpr h')
    simp [heq, hne]

theorem contains_asI32 (h : db.lifecycle.Inv) (hv : v ∈ db.rowsOf sid) (targets : List UInt32) :
    (targets.map asI32).contains v.version = targets.contains (asU32 v.version) := by
  rw [Bool.eq_iff_iff, List.contains_iff_mem, List.contains_iff_mem, List.mem_map]
  constructor
  · rintro ⟨n, hn, heq⟩
    rwa [(asU32_version_eq_iff h hv n).mpr heq.symm]
  · intro hmem
    exact ⟨_, hmem, ((asU32_version_eq_iff h hv _).mp rfl).symm⟩

end Rows

theorem idAt_setLabels (db : Db) (now : Timestamp) (r : SecretStore.UpsertRequest) (t : Uuid)
    (path : String) : (SecretStore.setLabels db now r).idAt t path = db.idAt t path :=
  Db.idAt_update db (SecretRow.pathKey_setLabels now r.environment r.tags r.customMetadata)
    (fun _ => rfl) t path

theorem prune_rows (hasc : (rows.map (·.version)).Pairwise (· < ·))
    (hrange : ∀ v ∈ rows, 1 ≤ v.version ∧ v.version ≤ 2147483647) {upTo : Int}
    (hsame : ∀ v ∈ rows, v.destroyed = false →
      (m.toNat ≤ newerCount (rows.map entryOfRow) (asU32 v.version) ↔ v.version ≤ upTo)) :
    prune m (rows.map entryOfRow) = (Db.pruned upTo rows).map entryOfRow := by
  have hentries := ascending_entries hrange hasc
  have hlen : (liveVersions (rows.map entryOfRow)).length < 4294967296 := by
    refine length_lt_of_ascending (hentries.sublist (List.filter_sublist.map _)) fun n hn => ?_
    obtain ⟨e, he, rfl⟩ := mem_liveVersions hn
    obtain ⟨v, hv, rfl⟩ := List.mem_map.mp he
    obtain ⟨hv₁, hv₂⟩ := hrange v hv
    have := toNat_asU32 v.version
    rw [entryOfRow_version]
    omega
  rw [prune_eq_filter hentries hlen, List.filter_map, Db.pruned]
  congr 1
  refine List.filter_congr fun v hv => ?_
  simp only [Function.comp_apply, entryOfRow_destroyed, entryOfRow_version]
  cases hd : v.destroyed with
  | true => simp
  | false =>
    have := hsame v hv hd
    by_cases hle : v.version ≤ upTo
    · simp [hle, Nat.not_lt.mpr (this.mpr hle)]
    · have : newerCount (rows.map entryOfRow) (asU32 v.version) < m.toNat := by
        by_contra hge
        exact hle (this.mp (by omega))
      simp [hle, this]

end WslVault.SecretEngine
