import WslVault.Base.Run
import WslVault.SecretEngine.KvStore

/-!
# What one request does to the in-memory store

The versions stored under a key (`versionsOf`) are all that reads and writes see of an
entry, besides its retention limit. A write takes the number after the newest live version.
When a soft-deleted or destroyed version still carries that number, the readers find that
older version first, or pruning by number removes the new one with it.
-/

namespace WslVault.SecretEngine

open Core Base

def currentNumber (vs : List VersionEntry) : UInt32 :=
  ((vs.reverse.find? (·.live)).map (·.version)).getD 0

theorem SecretEntry.currentVersionNumber_eq (e : SecretEntry) :
    e.currentVersionNumber = currentNumber e.versions := rfl
@[simp] theorem PutRequest.newVersion_version (r : PutRequest) (n : UInt32) :
    (r.newVersion n).version = n := rfl

variable {vs : List VersionEntry} {n m : UInt32} {store : KvStore} {v : VersionEntry}

theorem currentNumber_concat (h : v.live = true) : currentNumber (vs ++ [v]) = v.version := by
  simp [currentNumber, h]

theorem currentNumber_mem (vs : List VersionEntry) :
    (∃ v ∈ vs, v.live = true ∧ v.version = currentNumber vs) ∨ currentNumber vs = 0 := by
  unfold currentNumber
  cases h : vs.reverse.find? (·.live) with
  | none => exact .inr rfl
  | some v =>
    have hmem := List.mem_of_find?_eq_some h
    exact .inl ⟨v, List.mem_reverse.mp hmem, by simpa using List.find?_some h, rfl⟩

theorem liveVersions_append (vs ws : List VersionEntry) :
    liveVersions (vs ++ ws) = liveVersions vs ++ liveVersions ws := by
  simp [liveVersions]

@[simp] theorem liveVersions_newVersion (r : PutRequest) (n : UInt32) :
    liveVersions [r.newVersion n] = [n] := rfl

theorem mem_liveVersions (h : n ∈ liveVersions vs) : ∃ v ∈ vs, v.version = n := by
  obtain ⟨v, hv, rfl⟩ := List.mem_map.mp h
  exact ⟨v, (List.mem_filter.mp hv).1, rfl⟩

/-- With a positive limit the newest undestroyed version is not in excess, so
every target is the number of an older one. -/
theorem pruneTargets_concat (hm : m ≠ 0) (r : PutRequest) (n : UInt32) {t : UInt32}
    (ht : t ∈ pruneTargets m (vs ++ [r.newVersion n])) : t ∈ liveVersions vs := by
  have hlive : liveVersions (vs ++ [r.newVersion n]) = liveVersions vs ++ [n] := by
    rw [liveVersions_append, liveVersions_newVersion]
  unfold pruneTargets at ht
  split at ht
  · next hgt =>
    have hpos : 0 < m.toNat := by
      rcases Nat.eq_zero_or_pos m.toNat with h | h
      · exact absurd (UInt32.toNat_inj.mp h) hm
      · exact h
    -- truncating the length only makes the excess smaller
    have hbound : (liveCount (vs ++ [r.newVersion n]) - m).toNat ≤ (liveVersions vs).length := by
      rw [UInt32.toNat_sub_of_le _ _ (UInt32.le_of_lt hgt), liveCount, UInt32.toNat_ofNat', hlive]
      have := Nat.mod_le (liveVersions vs ++ [n]).length (2 ^ 32)
      simp only [List.length_append, List.length_singleton] at this ⊢
      omega
    rw [hlive, List.take_append_of_le_length hbound] at ht
    exact List.mem_of_mem_take ht
  · exact absurd ht List.not_mem_nil

theorem prune_concat (hm : m ≠ 0) (r : PutRequest) (hn : ∀ v ∈ vs, v.version ≠ n) :
    ∃ kept, kept.Sublist vs ∧ prune m (vs ++ [r.newVersion n]) = kept ++ [r.newVersion n] := by
  have hnot : n ∉ pruneTargets m (vs ++ [r.newVersion n]) := by
    intro ht
    obtain ⟨v, hv, hvn⟩ := mem_liveVersions (pruneTargets_concat hm r n ht)
    exact hn v hv hvn
  let keep := fun v : VersionEntry =>
    !(pruneTargets m (vs ++ [r.newVersion n])).contains v.version
  refine ⟨vs.filter keep, List.filter_sublist, ?_⟩
  have hkeep : keep (r.newVersion n) = true := by simp [keep, hnot]
  show (vs ++ [r.newVersion n]).filter keep = _
  rw [List.filter_append, List.filter_singleton, hkeep]
  rfl

/-- Pruning keeps or removes all versions of one number, so the first one of
a number that is left was the first before. -/
theorem find?_prune (h : (prune m vs).find? (·.version == n) = some v) :
    vs.find? (·.version == n) = some v := by
  unfold prune at h
  generalize pruneTargets m vs = targets at h
  have hv : v.version = n := by simpa using List.find?_some h
  have hkept : !targets.contains n := hv ▸ (List.mem_filter.mp (List.mem_of_find?_eq_some h)).2
  rw [List.find?_filter] at h
  rw [← h]
  congr 1
  funext w
  by_cases hw : w.version = n
  · rw [hw, hkept]
    simp
  · simp [hw]

def versionsOf (store : KvStore) (k : SecretKey) : List VersionEntry :=
  ((store.lookup k).map (·.versions)).getD []

def currentOf (store : KvStore) (k : SecretKey) : UInt32 := currentNumber (versionsOf store k)

theorem versionsOf_insert (store : KvStore) (k k' : SecretKey) (e : SecretEntry) :
    versionsOf (store.insert k e) k' = if k' = k then e.versions else versionsOf store k' := by
  unfold versionsOf
  by_cases h : k' = k
  · subst h
    simp
  · rw [AList.lookup_insert_ne h, if_neg h]

namespace KvStore

theorem writeEntry_versions (store : KvStore) (r : PutRequest) :
    (store.writeEntry r).versions = versionsOf store r.key := by
  unfold writeEntry versionsOf PutRequest.refresh
  cases store.lookup r.key <;> rfl

def nextNumber (store : KvStore) (k : SecretKey) : UInt32 := currentOf store k + 1

def CasHolds (store : KvStore) (r : PutRequest) : Prop :=
  ∀ expected, r.cas = some expected → expected = currentOf store r.key

-- the instance is named, for the one over all of `UInt32` is found as well
instance (store : KvStore) (r : PutRequest) : Decidable (store.CasHolds r) :=
  @decidable_of_iff _ (∀ expected ∈ r.cas, expected = currentOf store r.key) Iff.rfl
    (Option.decidableForallMem r.cas)

/-- A write is refused by its CAS check and stores no version, or appends the
next number and prunes. -/
theorem put_cases (store : KvStore) (r : PutRequest) :
    (¬ store.CasHolds r ∧ (∃ expected, (store.put r).2 =
        .error (.casConflict expected (currentOf store r.key))) ∧
      (store.put r).1 = store.insert r.key (store.writeEntry r)) ∨
    (store.CasHolds r ∧
      (store.put r).2 = .ok ((store.writeEntry r).secretId, store.nextNumber r.key) ∧
      (store.put r).1 = store.insert r.key
        { store.writeEntry r with
          versions := prune (store.writeEntry r).maxVersions
            (versionsOf store r.key ++ [r.newVersion (store.nextNumber r.key)])
          updatedAt := r.now }) := by
  have hcur : (store.writeEntry r).currentVersionNumber = currentOf store r.key := by
    rw [SecretEntry.currentVersionNumber_eq, writeEntry_versions]
    rfl
  simp only [put, hcur, writeEntry_versions]
  cases hcas : r.cas.filter (fun expected => currentOf store r.key ≠ expected) with
  | some expected =>
    refine .inl ⟨fun hold => ?_, ⟨expected, rfl⟩, rfl⟩
    obtain ⟨hr, hne⟩ := Option.filter_eq_some_iff.mp hcas
    exact of_decide_eq_true hne (hold expected hr).symm
  | none =>
    refine .inr ⟨fun expected hr => ?_, rfl, rfl⟩
    have := Option.filter_eq_none_iff.mp hcas expected hr
    simpa using Eq.symm (by simpa using this)

/-- A read finds the first stored version with the requested, or current,
number, unless it is destroyed. -/
theorem get_ok_iff (store : KvStore) (k : SecretKey) (version : Option UInt32) (v : VersionEntry) :
    store.get k.tenantId k.path version = .ok v ↔ version.getD (currentOf store k) ≠ 0 ∧
      (versionsOf store k).find? (·.version == version.getD (currentOf store k)) = some v ∧
      v.destroyed = false := by
  unfold get currentOf versionsOf
  cases hk : store.lookup k with
  | none => simp
  | some e =>
    simp only [SecretEntry.getVersion, Option.map_some, Option.getD_some,
      ← SecretEntry.currentVersionNumber_eq]
    by_cases hn : version.getD e.currentVersionNumber = 0
    · simp [hn]
    · rw [if_neg hn]
      cases e.versions.find? (·.version == version.getD e.currentVersionNumber) with
      | none => simp
      | some w =>
        by_cases hd : w.destroyed = true
        · simp only [if_pos hd]
          refine ⟨fun h => (by cases h), ?_⟩
          rintro ⟨-, ⟨⟩, hlive⟩
          rw [hd] at hlive
          cases hlive
        · simp only [if_neg hd]
          constructor
          · rintro ⟨⟩
            exact ⟨hn, rfl, by simpa using hd⟩
          · rintro ⟨-, ⟨⟩, -⟩
            rfl

end KvStore

def Request.LimitPositive : Request → Prop
  | .put r => r.maxVersions ≠ some 0
  | _ => True

instance : DecidablePred Request.LimitPositive
  | .put r => inferInstanceAs (Decidable (r.maxVersions ≠ some 0))
  | .get .. | .softDelete .. | .destroy .. => isTrue trivial

def LimitsPositive (store : KvStore) : Prop :=
  ∀ k e, store.lookup k = some e → e.maxVersions ≠ 0

theorem LimitsPositive.insert (h : LimitsPositive store) (k : SecretKey)
    {e : SecretEntry} (he : e.maxVersions ≠ 0) : LimitsPositive (store.insert k e) := by
  intro k' e' hk'
  by_cases hkk : k' = k
  · subst hkk
    rw [AList.lookup_insert] at hk'
    cases hk'
    exact he
  · rw [AList.lookup_insert_ne hkk] at hk'
    exact h k' e' hk'

variable {r : PutRequest}

theorem LimitsPositive.writeEntry (h : LimitsPositive store)
    (hr : r.maxVersions ≠ some 0) : (store.writeEntry r).maxVersions ≠ 0 := by
  unfold KvStore.writeEntry PutRequest.refresh
  cases hm : r.maxVersions with
  | some m =>
    rintro rfl
    exact hr hm
  | none =>
    cases hk : store.lookup r.key with
    | some e => exact h r.key e hk
    | none => simp [PutRequest.newEntry, hm, defaultMaxVersions]

theorem LimitsPositive.serve {q : Request} (h : LimitsPositive store) (hq : q.LimitPositive) :
    LimitsPositive (store.serve q).1 := by
  cases q with
  | get => exact h
  | put r =>
    rcases store.put_cases r with ⟨_, _, heq⟩ | ⟨_, _, heq⟩ <;>
      simp only [KvStore.serve, heq] <;> exact h.insert _ (h.writeEntry hq)
  | softDelete | destroy =>
    simp only [KvStore.serve, KvStore.softDelete, KvStore.destroy, KvStore.change]
    split
    · exact h
    · next e hk => exact h.insert _ (h _ e hk)

theorem LimitsPositive.run {calls : List Request} (h : ∀ c ∈ calls, c.LimitPositive) :
    LimitsPositive (run KvStore.serve ∅ calls) :=
  (along_of_forall _ h).invariant LimitsPositive (fun _ _ hs hq => hs.serve hq)
    (fun k e hk => by simp at hk)

/-! ## Reading one's own writes -/

def ReadsBack (store : KvStore) (k : SecretKey) (version : Option UInt32)
    (ciphertext dekId : String) : Prop :=
  ∃ v, store.get k.tenantId k.path version = .ok v ∧ v.ciphertext = ciphertext ∧ v.dekId = dekId

/-- If the write succeeds with number `n`, a read without a version and a read
of version `n` return what was written. -/
def ReadYourWrite (store : KvStore) (r : PutRequest) : Prop :=
  ∀ secretId n, (store.put r).2 = .ok (secretId, n) →
    ReadsBack (store.put r).1 r.key none r.ciphertext r.dekId ∧
    ReadsBack (store.put r).1 r.key (some n) r.ciphertext r.dekId

/-- The next number is not zero and no stored version of the key carries it. -/
def NumberFree (store : KvStore) (k : SecretKey) : Prop :=
  store.nextNumber k ≠ 0 ∧ ∀ v ∈ versionsOf store k, v.version ≠ store.nextNumber k

theorem NumberFree.versionsOf_put (hfree : NumberFree store r.key)
    (hlimit : (store.writeEntry r).maxVersions ≠ 0) (hcas : store.CasHolds r) :
    ∃ kept : List VersionEntry, kept.Sublist (versionsOf store r.key) ∧
      versionsOf (store.put r).1 r.key = kept ++ [r.newVersion (store.nextNumber r.key)] ∧
      currentOf (store.put r).1 r.key = store.nextNumber r.key := by
  rcases store.put_cases r with ⟨hrefused, -, -⟩ | ⟨-, -, hstore⟩
  · exact absurd hcas hrefused
  · obtain ⟨kept, hsub, hprune⟩ := prune_concat hlimit r hfree.2
    have hvs : versionsOf (store.put r).1 r.key =
        kept ++ [r.newVersion (store.nextNumber r.key)] := by
      rw [hstore, versionsOf_insert, if_pos rfl]
      exact hprune
    refine ⟨kept, hsub, hvs, ?_⟩
    rw [currentOf, hvs]
    exact currentNumber_concat rfl

theorem NumberFree.readYourWrite (hl : LimitsPositive store)
    (hr : r.maxVersions ≠ some 0) (hfree : NumberFree store r.key) : ReadYourWrite store r := by
  intro secretId n hok
  rcases store.put_cases r with ⟨_, ⟨_, herr⟩, _⟩ | ⟨hcas, hok', -⟩
  · rw [herr] at hok
    cases hok
  · rw [hok'] at hok
    cases hok
    obtain ⟨kept, hsub, hvs, hcur⟩ := hfree.versionsOf_put (hl.writeEntry hr) hcas
    have hfind : (versionsOf (store.put r).1 r.key).find?
        (·.version == store.nextNumber r.key) = some (r.newVersion (store.nextNumber r.key)) := by
      have hold : kept.find? (·.version == store.nextNumber r.key) = none := by
        rw [List.find?_eq_none]
        intro v hv
        simpa using hfree.2 v (hsub.subset hv)
      rw [hvs, List.find?_append, hold]
      simp
    have hget : ∀ version : Option UInt32,
        version.getD (currentOf (store.put r).1 r.key) = store.nextNumber r.key →
        ReadsBack (store.put r).1 r.key version r.ciphertext r.dekId := by
      intro version hv
      refine ⟨r.newVersion (store.nextNumber r.key),
        (KvStore.get_ok_iff _ _ _ _).mpr ⟨?_, ?_, rfl⟩, rfl, rfl⟩
      · rw [hv]
        exact hfree.1
      · rw [hv]
        exact hfind
    exact ⟨hget none hcur, hget (some _) rfl⟩

/-- When an older version carries the next number, no read of that number
returns a ciphertext other than the older version's. -/
theorem not_readsBack_of_taken {old : VersionEntry} (hcas : store.CasHolds r)
    (hold : (versionsOf store r.key).find? (·.version == store.nextNumber r.key) = some old)
    (hne : r.ciphertext ≠ old.ciphertext) :
    ¬ ReadsBack (store.put r).1 r.key (some (store.nextNumber r.key)) r.ciphertext r.dekId := by
  rintro ⟨v, hget, hc, -⟩
  rcases store.put_cases r with ⟨hno, -, -⟩ | ⟨-, -, heq⟩
  · exact hno hcas
  · obtain ⟨-, hfind, -⟩ := (KvStore.get_ok_iff _ _ _ _).mp hget
    rw [heq, versionsOf_insert, if_pos rfl] at hfind
    -- the older version stands before the new one, and pruning keeps both or neither
    have hfirst := find?_prune hfind
    rw [Option.getD_some, List.find?_append, hold] at hfirst
    cases hfirst
    exact hne hc.symm

/-- In every state a run of calls with positive retention limits reaches, a
write reads back whatever its data exactly when its CAS check refuses it or
the number it takes is free. -/
theorem readYourWrite_iff (calls : List Request) (hcalls : ∀ c ∈ calls, c.LimitPositive)
    (r : PutRequest) (hr : r.maxVersions ≠ some 0) :
    (∀ ciphertext dekId, ReadYourWrite (run KvStore.serve ∅ calls)
      { r with ciphertext := ciphertext, dekId := dekId }) ↔
    ¬ (run KvStore.serve ∅ calls).CasHolds r ∨ NumberFree (run KvStore.serve ∅ calls) r.key := by
  generalize hs : run KvStore.serve ∅ calls = store
  have hl : LimitsPositive store := hs ▸ LimitsPositive.run hcalls
  constructor
  · intro h
    by_cases hcas : store.CasHolds r
    · have hread : ∀ ciphertext, ReadsBack
          (store.put { r with ciphertext := ciphertext }).1 r.key
          (some (store.nextNumber r.key)) ciphertext r.dekId := by
        intro ciphertext
        rcases store.put_cases { r with ciphertext := ciphertext } with ⟨hno, -, -⟩ | ⟨-, hok, -⟩
        · exact absurd hcas hno
        · exact (h ciphertext r.dekId _ _ hok).2
      refine .inr ⟨fun hzero => ?_, fun v hv hnum => ?_⟩
      · obtain ⟨_, hget, -, -⟩ := hread r.ciphertext
        exact ((KvStore.get_ok_iff _ _ _ _).mp hget).1 hzero
      · cases hold : (versionsOf store r.key).find?
          (·.version == store.nextNumber r.key) with
        | none => exact absurd hnum (by simpa using List.find?_eq_none.mp hold v hv)
        | some old =>
          -- a ciphertext that is not the older version's
          have hne : old.ciphertext ++ "x" ≠ old.ciphertext := by
            intro heq
            simpa using congrArg String.length heq
          exact not_readsBack_of_taken (r := { r with ciphertext := old.ciphertext ++ "x" })
            hcas hold hne (hread _)
    · exact .inl hcas
  · rintro (hno | hfree) ciphertext dekId
    · intro secretId n hok
      rcases store.put_cases { r with ciphertext := ciphertext, dekId := dekId } with
        ⟨-, ⟨_, herr⟩, -⟩ | ⟨hcas, -, -⟩
      · rw [herr] at hok
        cases hok
      · exact absurd hcas hno
    · exact NumberFree.readYourWrite hl hr hfree

def plainPut (now : Timestamp) (ciphertext : String) : PutRequest where
  now := now
  freshId := "s1"
  tenantId := "tenant"
  path := "app/db"
  ciphertext := ciphertext
  dekId := "dek"
  cas := none
  customMetadata := ∅
  maxVersions := none

theorem readYourWrite_second_put :
    ReadYourWrite (run KvStore.serve ∅ [.put (plainPut 1 "a")]) (plainPut 2 "b") :=
  (readYourWrite_iff [.put (plainPut 1 "a")] (by decide) (plainPut 2 "b") (by decide)).mpr
    (.inr ⟨by decide, by decide⟩) (plainPut 2 "b").ciphertext (plainPut 2 "b").dekId

/-- Write, soft-delete the current version, write again: the second write is
numbered 1 as well, and both reads return the first, soft-deleted, one. -/
theorem readYourWrite_fails_after_softDelete :
    let store := run KvStore.serve ∅
      [.put (plainPut 1 "a"), .softDelete 2 "tenant" "app/db" []]
    (store.put (plainPut 3 "b")).2 = .ok ("s1", 1) ∧
    (store.put (plainPut 3 "b")).1.get "tenant" "app/db" none =
      .ok { (plainPut 1 "a").newVersion 1 with deletedAt := some 2 } ∧
    (store.put (plainPut 3 "b")).1.get "tenant" "app/db" (some 1) =
      .ok { (plainPut 1 "a").newVersion 1 with deletedAt := some 2 } ∧
    ¬ ReadYourWrite store (plainPut 3 "b") := by
  refine ⟨rfl, rfl, rfl, fun h => ?_⟩
  obtain ⟨⟨v, hget, hc, -⟩, -⟩ := h "s1" 1 rfl
  cases hget
  exact absurd hc (by decide)

/-- The labels, metadata and retention limit of a write are those of the entry. -/
structure PutRequest.Repeats (r : PutRequest) (e : SecretEntry) : Prop where
  customMetadata : r.customMetadata = e.customMetadata
  environment : ∀ env, r.customMetadata.lookup "environment" = some env → env = e.environment
  tags : ∀ s, r.customMetadata.lookup "tags" = some s → parseTags s = e.tags
  maxVersions : ∀ n, r.maxVersions = some n → n = e.maxVersions

theorem getD_eq_default_iff {α : Type} {o : Option α} {d : α} :
    o.getD d = d ↔ ∀ a, o = some a → a = d := by
  cases o <;> simp

theorem PutRequest.refresh_eq_self_iff {e : SecretEntry} :
    r.refresh e = e ↔ r.Repeats e := by
  have htags :
      (∀ tags, (r.customMetadata.lookup "tags").map parseTags = some tags → tags = e.tags) ↔
      ∀ s, r.customMetadata.lookup "tags" = some s → parseTags s = e.tags := by
    cases r.customMetadata.lookup "tags" <;> simp
  cases e
  simp only [refresh, SecretEntry.mk.injEq, getD_eq_default_iff, htags, true_and]
  exact ⟨fun ⟨hmax, henv, htags, hmeta⟩ => ⟨hmeta, henv, htags, hmax⟩,
    fun ⟨hmeta, henv, htags, hmax⟩ => ⟨hmax, henv, htags, hmeta⟩⟩

/-- A write that is refused leaves the store alone exactly when the entry is there
already and the write repeats its labels, metadata and retention limit. -/
theorem refused_put_keeps_store_iff (store : KvStore) (r : PutRequest) {expected actual : UInt32}
    (h : (store.put r).2 = .error (.casConflict expected actual)) :
    (∀ k, (store.put r).1.lookup k = store.lookup k) ↔
      ∃ e, store.lookup r.key = some e ∧ r.Repeats e := by
  obtain ⟨-, -, hstore⟩ | ⟨-, hok, -⟩ := KvStore.put_cases store r
  swap
  · rw [hok] at h
    cases h
  rw [hstore]
  constructor
  · intro hkeeps
    have hentry := hkeeps r.key
    rw [AList.lookup_insert] at hentry
    refine ⟨_, hentry.symm, PutRequest.refresh_eq_self_iff.mp ?_⟩
    conv_rhs => rw [KvStore.writeEntry, ← hentry, Option.getD_some]
  · rintro ⟨e, he, hrepeats⟩ k
    have hwrite : store.writeEntry r = e := by
      rw [KvStore.writeEntry, he]
      exact PutRequest.refresh_eq_self_iff.mpr hrepeats
    rw [hwrite]
    by_cases hk : k = r.key
    · rw [hk, AList.lookup_insert, he]
    · exact AList.lookup_insert_ne hk

def latePut : PutRequest := { plainPut 2 "b" with cas := some 0 }

theorem refused_put_of_same_metadata :
    ((run KvStore.serve ∅ [.put (plainPut 1 "a")]).put latePut).1.lookup latePut.key =
      (run KvStore.serve ∅ [.put (plainPut 1 "a")]).lookup latePut.key :=
  (refused_put_keeps_store_iff _ latePut
    (show _ = Except.error (VaultError.casConflict 0 1) from rfl)).mpr
    ⟨_, rfl, by decide, by decide, by decide, nofun⟩ latePut.key

/-- A create-only write to a new path is refused for its number and leaves an entry
without versions behind. -/
theorem refused_put_creates_entry :
    let r := { plainPut 1 "a" with cas := some 3 }
    ((∅ : KvStore).put r).2 = .error (.casConflict 3 0) ∧ (∅ : KvStore).lookup r.key = none ∧
      (((∅ : KvStore).put r).1.lookup r.key).map SecretEntry.versions = some [] :=
  ⟨rfl, rfl, rfl⟩

end WslVault.SecretEngine
