import Mathlib.Data.List.Count
import WslVault.CryptoService.Verify.Chains
import WslVault.CryptoService.Interleaving

/-!
# How often a key is used

Tasks that overlap share the count of a tenant's current DEK, and a task that finds it spent
makes a new DEK while others go on. Whoever comes back first installs its own.
-/

namespace WslVault.CryptoService

open Base Core Storage Storage.KeyStore KekStore

variable {aes : Aes256Gcm}

/-! ## What one stretch does -/

def Phase.madeId : Phase → Option String
  | .dekUnsaved keyId _ | .made keyId => some keyId
  | _ => none

structure Quiet (s s' : KekStore) : Prop where
  deks : s'.deks = s.deks
  currentDek : s'.currentDek = s.currentDek

def OwnedBy (s : KekStore) (tenantId keyId : String) : Prop :=
  ∃ entry, s.deks.lookup keyId = some entry ∧ entry.tenantId = tenantId

inductive Stretch (task : Task) (phase : Phase) (s s' : KekStore) :
    Except VaultError Next → Prop where
  | failed {e} (h : Quiet s s') : Stretch task phase s s' (.error e)
  | wentOn {next} (h : Quiet s s') (hmade : next.madeId = phase.madeId)
      (hdrawn : Pool.drawnBy task phase = none)
      (howned : phase = .start → ∀ keyId, task.goal = .rotate keyId →
        OwnedBy s task.tenantId keyId) : Stretch task phase s s' (.ok (.goOn next))
  | ended {answer} (h : Quiet s s') (hhanded : Pool.handedBy task s' answer = none) :
      Stretch task phase s s' (.ok (.finished answer))
  | created {kek key wrapped} (hphase : phase = .haveKek kek)
      (hgoal : task.goal = .encrypt ∨ task.goal = .create) (hkey : task.env.dek.key = .ok key)
      (hs' : s' = s.cacheDek task.env.dek.id.toString ⟨key, [], wrapped, task.tenantId, 1⟩) :
      Stretch task phase s s' (.ok (.goOn (.dekUnsaved task.env.dek.id.toString wrapped)))
  | rotated {kek key keyId wrapped entry}
      (hphase : phase = .haveKek kek) (hgoal : task.goal = .rotate keyId)
      (hkey : task.env.dek.key = .ok key) (hentry : s.deks.lookup keyId = some entry)
      (hs' : s' = s.cacheDek keyId (entry.rotate key wrapped)) : Stretch task phase s s'
        (.ok (.goOn (.rotated keyId (entry.rotate key wrapped).version wrapped)))
  | used {keyId} (hgoal : task.goal = .encrypt) (h : Uses s s' task.tenantId keyId) :
      Stretch task phase s s' (.ok (.finished (.keyId keyId)))
  | installed {keyId} (hgoal : task.goal = .encrypt) (hphase : phase = .made keyId)
      (hs' : s' = s.setCurrentDek task.tenantId { keyId := keyId, operations := 1 }) :
      Stretch task phase s s' (.ok (.finished (.keyId keyId)))

theorem Quiet.refl (s : KekStore) : Quiet s s := ⟨rfl, rfl⟩

variable {task : Task} {phase : Phase}

variable {s : KekStore} {t keyId tenantId : String} {x : Option (Task × Phase)} {key : Key}
  {s' : KekStore}

theorem Stretch.later {next : Phase} (h : Quiet s s')
    (hmade : next.madeId = phase.madeId) (hdrawn : Pool.drawnBy task phase = none)
    (hphase : phase ≠ .start) : Stretch task phase s s' (.ok (.goOn next)) :=
  .wentOn h hmade hdrawn fun hstart => absurd hstart hphase

section

variable (s)

theorem begin_outcome : Comes task.begin s (Stretch task .start s) := by
  unfold Task.begin
  split
  · next hgoal =>
    simp only [outcome_bind]
    refine (useCurrentDek_outcome s task.tenantId).mono ?_ fun _ _ h => h.elim
    rintro _ s₁ (⟨keyId, rfl, huses⟩ | ⟨rfl, rfl, -⟩)
    · exact .pure (.used hgoal huses)
    · refine .pure (.wentOn (.refl _) rfl rfl fun _ keyId h => ?_)
      rw [hgoal] at h
      cases h
  · next hgoal =>
    refine .pure (.wentOn (.refl _) rfl rfl fun _ keyId h => ?_)
    rw [hgoal] at h
    cases h
  · next keyId hgoal =>
    simp only [outcome_bind, outcome_get]
    split
    · exact .throw (.failed (.refl _))
    · next entry hentry =>
      split
      · exact .throw (.failed (.refl _))
      · next hown =>
        refine .pure (.wentOn (.refl _) rfl rfl fun _ keyId' h => ?_)
        rw [hgoal, Goal.rotate.injEq] at h
        exact ⟨entry, h ▸ hentry, not_not.mp hown⟩

theorem readKek_outcome :
    Comes task.readKek s (Stretch task .needKek s) := by
  unfold Task.readKek
  simp only [outcome_bind, outcome_get]
  split
  · exact .pure (.later (.refl _) rfl rfl (by decide))
  · exact .pure (.later (.refl _) rfl rfl (by decide))

theorem createKek_outcome :
    Comes (task.createKek aes) s (Stretch task .kekMiss s) := by
  unfold Task.createKek
  simp only [outcome_bind, outcome_get]
  split
  · exact .pure (.later (.refl _) rfl rfl (by decide))
  · simp only [outcome_bind, outcome_ofExcept, outcome_modify, outcome_pure]
    exact ⟨fun _ _ => ⟨fun _ _ => ⟨fun _ _ => .later ⟨rfl, rfl⟩ rfl rfl (by decide),
      fun _ _ => .failed (.refl _)⟩, fun _ _ => .failed (.refl _)⟩, fun _ _ => .failed (.refl _)⟩

theorem saveKek_outcome (rawKek : Key) (wrapped : String) :
    Comes (task.saveKek rawKek wrapped) s (Stretch task (.kekUnsaved rawKek wrapped) s) := by
  unfold Task.saveKek
  simp only [outcome_bind, outcome_get]
  split
  · exact .pure (.later (.refl s) rfl rfl (by simp))
  · simp only [outcome_bind, outcome_requireUuid, outcome_pure]
    exact ⟨fun _ _ => outcome_persist (fun _ _ => .later ⟨rfl, rfl⟩ rfl rfl (by simp))
      fun _ => .failed (.refl s), fun _ => .failed (.refl s)⟩

theorem createDek_outcome (kek : Key)
    (hgoal : task.goal = .encrypt ∨ task.goal = .create) :
    Comes (task.createDek aes kek) s (Stretch task (.haveKek kek) s) := by
  unfold Task.createDek
  simp only [outcome_bind, outcome_ofExcept, outcome_modify, outcome_pure]
  exact ⟨fun key hkey => ⟨fun wrapped _ =>
    .created rfl hgoal (generateRandom32Bytes_eq_ok hkey) rfl,
    fun _ _ => .failed (.refl _)⟩, fun _ _ => .failed (.refl _)⟩

theorem saveDek_outcome (keyId wrapped : String) :
    Comes (task.saveDek keyId wrapped) s (Stretch task (.dekUnsaved keyId wrapped) s) := by
  unfold Task.saveDek
  simp only [outcome_bind, outcome_get]
  split
  · exact .pure (.later (.refl s) rfl rfl (by simp))
  · simp only [outcome_bind, outcome_requireUuid, outcome_pure]
    refine ⟨fun _ _ => ⟨fun _ _ => ?_, fun _ => .failed (.refl s)⟩, fun _ => .failed (.refl s)⟩
    exact outcome_persist (fun _ _ => .later ⟨rfl, rfl⟩ rfl rfl (by simp))
      fun _ => .failed (.refl s)

theorem replaceDek_outcome (keyId : String) (kek : Key)
    (hgoal : task.goal = .rotate keyId) :
    Comes (task.replaceDek aes keyId kek) s (Stretch task (.haveKek kek) s) := by
  unfold Task.replaceDek
  simp only [outcome_bind, outcome_ofExcept, outcome_get]
  refine ⟨fun key hkey => ⟨fun wrapped _ => ?_, fun _ _ => .failed (.refl _)⟩,
    fun _ _ => .failed (.refl _)⟩
  split
  · exact .throw (.failed (.refl _))
  · next entry hentry =>
    simp only [outcome_bind, outcome_modify, outcome_pure]
    exact .rotated rfl hgoal (generateRandom32Bytes_eq_ok hkey) hentry rfl

theorem markRotated_outcome (keyId : String) (version : UInt32) (wrapped : String) :
    Comes (task.markRotated keyId version wrapped) s
      (Stretch task (.rotated keyId version wrapped) s) := by
  unfold Task.markRotated
  simp only [outcome_bind, outcome_get]
  split
  · exact .pure (.later (.refl s) rfl rfl (by simp))
  · simp only [outcome_bind, outcome_requireUuid]
    refine ⟨fun _ _ => ⟨fun _ _ => ?_, fun _ => .failed (.refl s)⟩, fun _ => .failed (.refl s)⟩
    split
    · exact .throw (.failed (.refl s))
    · rw [outcome_bind, outcome_modify, outcome_pure]
      exact .later ⟨rfl, rfl⟩ rfl rfl (by simp)

theorem saveRotated_outcome (keyId : String) (version : UInt32) (wrapped : String) :
    Comes (task.saveRotated keyId version wrapped) s
      (Stretch task (.marked keyId version wrapped) s) := by
  have hhanded (s' : KekStore) : Pool.handedBy task s' (.version version) = none := by
    unfold Pool.handedBy
    split <;> simp_all
  unfold Task.saveRotated
  simp only [outcome_bind, outcome_get]
  split
  · exact .pure (.ended (.refl s) (hhanded s))
  · simp only [outcome_bind, outcome_requireUuid, outcome_pure]
    exact ⟨fun _ _ => outcome_persist (fun _ _ => .ended ⟨rfl, rfl⟩ (hhanded _))
      fun _ => .failed (.refl s), fun _ => .failed (.refl s)⟩

theorem advance_outcome (phase : Phase) :
    Comes (task.advance aes phase) s (Stretch task phase s) := by
  cases phase with
  | start => exact begin_outcome s
  | needKek => exact readKek_outcome s
  | kekMiss => exact createKek_outcome s
  | kekUnsaved rawKek wrapped => exact saveKek_outcome s rawKek wrapped
  | haveKek kek =>
    simp only [Task.advance]
    split
    · next hgoal => exact createDek_outcome s kek (by simp [hgoal])
    · next hgoal => exact createDek_outcome s kek (by simp [hgoal])
    · next keyId hgoal => exact replaceDek_outcome s keyId kek hgoal
  | dekUnsaved keyId wrapped => exact saveDek_outcome s keyId wrapped
  | made keyId =>
    simp only [Task.advance]
    split
    · next hgoal =>
      simp only [outcome_bind, outcome_pure]
      refine (installCurrentDek_outcome s task.tenantId keyId).mono ?_ fun _ _ h => h.elim
      rintro installed s' (huses | ⟨rfl, -, hs'⟩)
      · exact .used hgoal huses
      · exact .installed hgoal rfl hs'
    · next hgoal =>
      refine .pure (.ended (.refl _) ?_)
      unfold Pool.handedBy
      split
      · next h _ => exact absurd h hgoal
      · rfl
  | rotated keyId version wrapped => exact markRotated_outcome s keyId version wrapped
  | marked keyId version wrapped => exact saveRotated_outcome s keyId version wrapped

end

/-! ## The count of a key -/

def Output.hands (keyId : String) : Output → Bool
  | .handed _ id _ => id = keyId
  | .drew .. => false

def Output.handsBytes (key : Key) : Output → Bool
  | .handed _ _ bytes => bytes = some key
  | .drew .. => false

/-- The tenant owns the key id, and the bytes it stands for were drawn for them. -/
def Owned (outs : List Output) (s : KekStore) (tenantId keyId : String) : Prop :=
  ∃ entry, s.deks.lookup keyId = some entry ∧ entry.tenantId = tenantId ∧
    .drew tenantId keyId entry.rawDek ∈ outs

variable {outs : List Output} {i : Nat} {operations : UInt64} {kek : Key}

theorem Owned.unique {t' : String}
    (h : Owned outs s t keyId) (h' : Owned outs s t' keyId) : t = t' := by
  obtain ⟨entry, hentry, rfl, -⟩ := h
  obtain ⟨entry', hentry', rfl, -⟩ := h'
  rw [hentry, Option.some.injEq] at hentry'
  rw [hentry']

/-- A task that makes a DEK to encrypt with has one nobody has used, and a task
that rotates a DEK does so for its owner. -/
structure Sound (outs : List Output) (s : KekStore) (task : Task) (phase : Phase) : Prop where
  made : task.goal = .encrypt → ∀ keyId, phase.madeId = some keyId →
    Owned outs s task.tenantId keyId ∧ outs.countP (·.hands keyId) = 0 ∧
      ∀ tenantId current, s.currentDek.lookup tenantId = some current → current.keyId ≠ keyId
  rotating : ∀ keyId, task.goal = .rotate keyId → phase ≠ .start → OwnedBy s task.tenantId keyId

def Pool.Waits (pool : Pool) (i : Nat) (keyId : String) : Prop :=
  ∃ task phase, pool.tasks i = some (task, phase) ∧ task.goal = .encrypt ∧ phase.madeId = some keyId

structure Usage (outs : List Output) (pool : Pool) : Prop where
  current : ∀ tenantId current, pool.store.currentDek.lookup tenantId = some current →
    current.operations ≤ dekMaxOperations ∧
      outs.countP (·.hands current.keyId) = current.operations.toNat ∧
      Owned outs pool.store tenantId current.keyId
  tasks : ∀ i task phase, pool.tasks i = some (task, phase) → Sound outs pool.store task phase
  apart : ∀ i j keyId, pool.Waits i keyId → pool.Waits j keyId → i = j
  bounded : ∀ keyId, outs.countP (·.hands keyId) ≤ dekMaxOperations.toNat
  handed : ∀ tenantId keyId bytes, .handed tenantId keyId bytes ∈ outs →
    ∃ key, bytes = some key ∧ .drew tenantId keyId key ∈ outs
  drawn : ∀ tenantId keyId key, .drew tenantId keyId key ∈ outs →
    ∃ entry, pool.store.deks.lookup keyId = some entry ∧ key ∈ entry.rawDek :: entry.superseded
  oneId : ∀ tenantId keyId tenantId' keyId' key, .drew tenantId keyId key ∈ outs →
    .drew tenantId' keyId' key ∈ outs → keyId = keyId'

namespace Usage

variable {outs : List Output} {pool : Pool}

theorem start (h : s.currentDek = ∅) : Usage [] (Pool.start s) where
  current := by
    intro tenantId current hcurrent
    rw [Pool.start, h] at hcurrent
    cases hcurrent
  tasks := fun _ _ _ h => by cases h
  apart := by
    rintro i j keyId ⟨_, _, h, -⟩
    cases h
  bounded := fun _ => Nat.zero_le _
  handed := fun _ _ _ h => by cases h
  drawn := fun _ _ _ h => by cases h
  oneId := fun _ _ _ _ _ h => by cases h

theorem tasks_update {j : Nat} {y : Task × Phase}
    (h : (Pool.mk s' (Function.update pool.tasks i x)).tasks j = some y) :
    (j ≠ i ∧ pool.tasks j = some y) ∨ (j = i ∧ x = some y) := by
  change Function.update pool.tasks i x j = some y at h
  by_cases hj : j = i
  · subst hj
    rw [Function.update_self] at h
    exact .inr ⟨rfl, h⟩
  · rw [Function.update_of_ne hj] at h
    exact .inl ⟨hj, h⟩

theorem waits_update {j : Nat} (h : (Pool.mk s' (Function.update pool.tasks i x)).Waits j keyId) :
    pool.Waits j keyId ∨ (j = i ∧ ∃ task phase, x = some (task, phase) ∧
      task.goal = .encrypt ∧ phase.madeId = some keyId) := by
  obtain ⟨task, phase, htask, hgoal, hmade⟩ := h
  rcases tasks_update htask with ⟨-, htask⟩ | ⟨hj, htask⟩
  · exact .inl ⟨task, phase, htask, hgoal, hmade⟩
  · exact .inr ⟨hj, task, phase, htask, hgoal, hmade⟩

theorem waits_owned (h : Usage outs pool) (hwaits : pool.Waits i keyId) :
    keyId ∈ pool.store.deks := by
  obtain ⟨task, phase, htask, hgoal, hmade⟩ := hwaits
  obtain ⟨entry, hentry, -⟩ := ((h.tasks i task phase htask).made hgoal keyId hmade).1
  exact mem_of_lookup hentry

theorem count_of_not_mem (h : Usage outs pool) (hnew : keyId ∉ pool.store.deks) :
    outs.countP (·.hands keyId) = 0 := by
  rw [List.countP_eq_zero]
  intro out hout hhands
  cases out with
  | drew => cases hhands
  | handed tenantId id bytes =>
    obtain rfl : id = keyId := of_decide_eq_true hhands
    obtain ⟨key, -, hdrew⟩ := h.handed tenantId id bytes hout
    obtain ⟨entry, hentry, -⟩ := h.drawn tenantId id key hdrew
    exact hnew (mem_of_lookup hentry)

/-! ### The steps -/

variable {s' : KekStore} {i : Nat} {outs' : List Output} {id : String}

/-- A step that hands out nothing. -/
structure Keeps (outs outs' : List Output) (s s' : KekStore) : Prop where
  count : ∀ id, outs'.countP (·.hands id) = outs.countP (·.hands id)
  currentDek : s'.currentDek = s.currentDek
  owned : ∀ {t id}, Owned outs s t id → Owned outs' s' t id
  ownedBy : ∀ {t id}, OwnedBy s t id → OwnedBy s' t id

theorem Keeps.sound (hkeeps : Keeps outs outs' s s') (h : Sound outs s task phase) :
    Sound outs' s' task phase := by
  refine ⟨fun hgoal keyId hmade => ?_, fun keyId hgoal hphase => ?_⟩
  · obtain ⟨ho, hcount, hcurrent⟩ := h.made hgoal keyId hmade
    rw [hkeeps.count, hkeeps.currentDek]
    exact ⟨hkeeps.owned ho, hcount, hcurrent⟩
  · exact hkeeps.ownedBy (h.rotating keyId hgoal hphase)

theorem Keeps.current (hkeeps : Keeps outs outs' pool.store s') (h : Usage outs pool)
    {current : CurrentDek} (hcurrent : s'.currentDek.lookup tenantId = some current) :
    current.operations ≤ dekMaxOperations ∧
      outs'.countP (·.hands current.keyId) = current.operations.toNat ∧
      Owned outs' s' tenantId current.keyId := by
  rw [hkeeps.currentDek] at hcurrent
  obtain ⟨hle, hcount, ho⟩ := h.current tenantId current hcurrent
  rw [hkeeps.count]
  exact ⟨hle, hcount, hkeeps.owned ho⟩

/-- A stretch that leaves the DEKs alone. The task may have ended, or goes on with
what it had. -/
theorem quiet (h : Usage outs pool) (hs' : Quiet pool.store s')
    (hx : ∀ task phase, x = some (task, phase) → Sound outs pool.store task phase ∧
      ∀ keyId, task.goal = .encrypt → phase.madeId = some keyId → pool.Waits i keyId) :
    Usage outs ⟨s', Function.update pool.tasks i x⟩ := by
  have hwaits : ∀ j keyId, (Pool.mk s' (Function.update pool.tasks i x)).Waits j keyId →
      pool.Waits j keyId := by
    intro j keyId hj
    rcases waits_update hj with hj | ⟨rfl, task, phase, rfl, hgoal, hmade⟩
    · exact hj
    · exact (hx task phase rfl).2 keyId hgoal hmade
  have hkeeps : Keeps outs outs pool.store s' :=
    ⟨fun _ => rfl, hs'.currentDek, fun ho => by rwa [Owned, hs'.deks],
      fun ho => by rwa [OwnedBy, hs'.deks]⟩
  refine ⟨fun _ _ hcurrent => hkeeps.current h hcurrent, fun j task phase htask => ?_,
    fun j k keyId hj hk => h.apart j k keyId (hwaits j keyId hj) (hwaits k keyId hk), h.bounded,
    h.handed, fun tenantId keyId key hdrew => ?_, h.oneId⟩
  · rcases tasks_update htask with ⟨-, htask⟩ | ⟨rfl, rfl⟩
    · exact hkeeps.sound (h.tasks j task phase htask)
    · exact hkeeps.sound (hx task phase rfl).1
  · rw [hs'.deks]
    exact h.drawn tenantId keyId key hdrew

/-- A key drawn for a key id: a new one, or one whose entry it rotates. -/
structure Draws (s s' : KekStore) (tenantId keyId : String) (key : Key) : Prop where
  entry : ∃ entry, s'.deks = s.deks.insert keyId entry ∧ entry.tenantId = tenantId ∧
    entry.rawDek = key ∧ ∀ old, s.deks.lookup keyId = some old → old.tenantId = tenantId ∧
      ∀ k ∈ old.rawDek :: old.superseded, k ∈ entry.rawDek :: entry.superseded
  currentDek : s'.currentDek = s.currentDek

section

variable (h : Draws s s' tenantId keyId key)

include h

theorem Draws.owned :
    Owned (outs ++ [.drew tenantId keyId key]) s' tenantId keyId := by
  obtain ⟨entry, hdeks, htenant, hraw, -⟩ := h.entry
  refine ⟨entry, ?_, htenant, ?_⟩
  · rw [hdeks, AList.lookup_insert]
  · rw [hraw]
    exact List.mem_append_right _ List.mem_cons_self

theorem Draws.keeps (hid : OwnedBy s t id) : OwnedBy s' t id := by
  obtain ⟨entry, hdeks, htenant, -, hold⟩ := h.entry
  obtain ⟨entry', hentry', ht⟩ := hid
  unfold OwnedBy
  rw [hdeks]
  by_cases heq : id = keyId
  · subst heq
    exact ⟨entry, AList.lookup_insert _, by rw [htenant, ← (hold entry' hentry').1, ht]⟩
  · exact ⟨entry', by rw [AList.lookup_insert_ne heq, hentry'], ht⟩

theorem Draws.keeps_owned (hid : Owned outs s t id) :
    Owned (outs ++ [.drew tenantId keyId key]) s' t id := by
  by_cases heq : id = keyId
  · subst heq
    obtain ⟨entry, -, -, -, hold⟩ := h.entry
    obtain ⟨entry', hentry', rfl, -⟩ := hid
    rw [(hold entry' hentry').1]
    exact h.owned
  · obtain ⟨entry, hdeks, -⟩ := h.entry
    obtain ⟨entry', hentry', ht, hdrew⟩ := hid
    refine ⟨entry', ?_, ht, List.mem_append_left _ hdrew⟩
    rw [hdeks, AList.lookup_insert_ne heq, hentry']

end

theorem count_drew (tenantId keyId id : String) (key : Key) :
    (outs ++ [Output.drew tenantId keyId key]).countP (·.hands id) = outs.countP (·.hands id) := by
  simp [List.countP_append, Output.hands]

theorem drew (h : Usage outs pool) (hs' : Draws pool.store s' tenantId keyId key)
    (hfresh : ∀ id entry, pool.store.deks.lookup id = some entry →
      key ∉ entry.rawDek :: entry.superseded)
    (hx : ∀ task phase, x = some (task, phase) →
      Sound (outs ++ [.drew tenantId keyId key]) s' task phase ∧
        ∀ id, task.goal = .encrypt → phase.madeId = some id → id ∉ pool.store.deks) :
    Usage (outs ++ [.drew tenantId keyId key]) ⟨s', Function.update pool.tasks i x⟩ := by
  have hkeeps : Keeps outs (outs ++ [.drew tenantId keyId key]) pool.store s' :=
    ⟨fun _ => count_drew .., hs'.currentDek, hs'.keeps_owned, hs'.keeps⟩
  refine ⟨fun _ _ hcurrent => hkeeps.current h hcurrent, fun j task phase htask => ?_,
    fun j k id hj hk => ?_, fun id => ?_, fun t id bytes hhanded => ?_, fun t id k hdrew => ?_,
    fun t id t' id' k hdrew hdrew' => ?_⟩
  · rcases tasks_update htask with ⟨-, htask⟩ | ⟨rfl, rfl⟩
    · exact hkeeps.sound (h.tasks j task phase htask)
    · exact (hx task phase rfl).1
  · -- a DEK that has just been made is not one that another task has made
    rcases waits_update hj with hj' | ⟨hj', task, phase, hsome, hgoal, hmade⟩
    · rcases waits_update hk with hk' | ⟨-, task, phase, hsome, hgoal, hmade⟩
      · exact h.apart j k id hj' hk'
      · exact absurd (h.waits_owned hj') ((hx task phase hsome).2 id hgoal hmade)
    · rcases waits_update hk with hk' | ⟨hk', -⟩
      · exact absurd (h.waits_owned hk') ((hx task phase hsome).2 id hgoal hmade)
      · rw [hj', hk']
  · rw [count_drew]
    exact h.bounded id
  · have hmem : Output.handed t id bytes ∈ outs := by simpa using hhanded
    obtain ⟨k, rfl, hdrew⟩ := h.handed t id bytes hmem
    exact ⟨k, rfl, List.mem_append_left _ hdrew⟩
  · obtain ⟨entry, hdeks, -, hraw, hold⟩ := hs'.entry
    rw [hdeks]
    rcases List.mem_append.mp hdrew with hdrew | hdrew
    · obtain ⟨old, hlookup, hk⟩ := h.drawn t id k hdrew
      by_cases heq : id = keyId
      · subst heq
        exact ⟨entry, AList.lookup_insert _, (hold old hlookup).2 k hk⟩
      · exact ⟨old, by rw [AList.lookup_insert_ne heq, hlookup], hk⟩
    · cases List.mem_singleton.mp hdrew
      exact ⟨entry, AList.lookup_insert _, by rw [hraw]; exact List.mem_cons_self⟩
  · have hnew : ∀ t id, .drew t id key ∉ outs := by
      intro t id hmem
      obtain ⟨entry, hentry, hkey⟩ := h.drawn t id key hmem
      exact hfresh id entry hentry hkey
    rcases List.mem_append.mp hdrew with hdrew | hdrew
    · rcases List.mem_append.mp hdrew' with hdrew' | hdrew'
      · exact h.oneId t id t' id' k hdrew hdrew'
      · cases List.mem_singleton.mp hdrew'
        exact absurd hdrew (hnew t id)
    · cases List.mem_singleton.mp hdrew
      rcases List.mem_append.mp hdrew' with hdrew' | hdrew'
      · exact absurd hdrew' (hnew t' id')
      · cases List.mem_singleton.mp hdrew'
        rfl

theorem count_handed (tenantId keyId id : String) (bytes : Option Key) :
    (outs ++ [Output.handed tenantId keyId bytes]).countP (·.hands id) =
      outs.countP (·.hands id) + if keyId = id then 1 else 0 := by
  rw [List.countP_append, List.countP_singleton]
  simp [Output.hands]

theorem handOut (h : Usage outs pool) (hdeks : s'.deks = pool.store.deks)
    (hcurrent : s'.currentDek = pool.store.currentDek.insert tenantId ⟨keyId, operations⟩)
    (hle : operations ≤ dekMaxOperations)
    (hcount : outs.countP (·.hands keyId) + 1 = operations.toNat)
    (howned : Owned outs pool.store tenantId keyId) (hothers : ∀ j, j ≠ i → ¬ pool.Waits j keyId) :
    Usage (outs ++ [.handed tenantId keyId ((s'.deks.lookup keyId).map DekEntry.rawDek)])
      ⟨s', Function.update pool.tasks i none⟩ := by
  have hkeeps {t id : String} (ho : Owned outs pool.store t id) :
      Owned (outs ++ [.handed tenantId keyId ((s'.deks.lookup keyId).map DekEntry.rawDek)]) s' t
        id := by
    obtain ⟨entry, hentry, ht, hdrew⟩ := ho
    exact ⟨entry, by rw [hdeks, hentry], ht, List.mem_append_left _ hdrew⟩
  refine ⟨fun t current hlookup => ?_, fun j task phase htask => ?_, fun j k id hj hk => ?_,
    fun id => ?_, fun t id bytes hhanded => ?_, fun t id k hdrew => ?_,
    fun t id t' id' k hdrew hdrew' => ?_⟩
  · rw [hcurrent] at hlookup
    rw [count_handed]
    obtain ⟨rfl, rfl⟩ | ⟨ht, hlookup⟩ := lookup_insert_cases hlookup
    · exact ⟨hle, by simpa using hcount, hkeeps howned⟩
    · obtain ⟨hle', hcount', ho⟩ := h.current t current hlookup
      have hne : keyId ≠ current.keyId := by
        intro heq
        exact ht (ho.unique (heq ▸ howned))
      rw [if_neg hne]
      exact ⟨hle', hcount', hkeeps ho⟩
  · rcases tasks_update htask with ⟨hj, htask⟩ | ⟨-, hnone⟩
    · have hsound := h.tasks j task phase htask
      refine ⟨fun hgoal id hmade => ?_, fun id hgoal hphase => ?_⟩
      · obtain ⟨ho, hzero, hnot⟩ := hsound.made hgoal id hmade
        have hne : keyId ≠ id := by
          rintro rfl
          exact hothers j hj ⟨task, phase, htask, hgoal, hmade⟩
        rw [count_handed, if_neg hne]
        refine ⟨hkeeps ho, hzero, ?_⟩
        rw [hcurrent]
        exact forall_lookup_insert hnot hne
      · unfold OwnedBy
        rw [hdeks]
        exact hsound.rotating id hgoal hphase
    · cases hnone
  · rcases waits_update hj with hj | ⟨-, _, _, hnone, -⟩
    · rcases waits_update hk with hk | ⟨-, _, _, hnone, -⟩
      · exact h.apart j k id hj hk
      · cases hnone
    · cases hnone
  · rw [count_handed]
    split
    · next heq =>
      subst heq
      rw [hcount]
      exact UInt64.le_iff_toNat_le.mp hle
    · exact h.bounded id
  · rcases List.mem_append.mp hhanded with hhanded | hhanded
    · obtain ⟨key, rfl, hdrew⟩ := h.handed t id bytes hhanded
      exact ⟨key, rfl, List.mem_append_left _ hdrew⟩
    · cases List.mem_singleton.mp hhanded
      obtain ⟨entry, hentry, -, hdrew⟩ := howned
      exact ⟨entry.rawDek, by rw [hdeks, hentry, Option.map_some], List.mem_append_left _ hdrew⟩
  · rw [hdeks]
    exact h.drawn t id k (by simpa using hdrew)
  · exact h.oneId t id t' id' k (by simpa using hdrew) (by simpa using hdrew')

end Usage

/-! ## Runs -/

def KekStore.Unused (s : KekStore) (key : Key) : Prop :=
  ∀ dek ∈ s.deks.entries, key ∉ dek.2.rawDek :: dek.2.superseded

theorem KekStore.Unused.not_mem (h : s.Unused key) (id : String)
    (entry : DekEntry) (hentry : s.deks.lookup id = some entry) :
    key ∉ entry.rawDek :: entry.superseded :=
  h ⟨id, entry⟩ (AList.mem_lookup_iff.mp hentry)

/-- What a stretch draws for a DEK is new, and so is the id of a DEK it creates. -/
def Task.Fresh (task : Task) (s : KekStore) : Phase → Prop
  | .haveKek _ =>
    (∀ key ∈ task.env.dek.key.toOption, s.Unused key) ∧
      (task.goal = .encrypt ∨ task.goal = .create → task.env.dek.id.toString ∉ s.deks)
  | _ => True

def Pool.Fresh (pool : Pool) : PoolEvent → Prop
  | .spawn _ _ => True
  | .resume i => ∀ running ∈ pool.tasks i, running.1.Fresh pool.store running.2

instance (s : KekStore) (key : Key) : Decidable (s.Unused key) :=
  inferInstanceAs (Decidable (∀ dek ∈ s.deks.entries, key ∉ dek.2.rawDek :: dek.2.superseded))

instance (task : Task) (s : KekStore) (phase : Phase) : Decidable (task.Fresh s phase) := by
  unfold Task.Fresh
  split <;> infer_instance

instance (pool : Pool) : (event : PoolEvent) → Decidable (pool.Fresh event)
  | .spawn _ _ => isTrue trivial
  | .resume i =>
    inferInstanceAs (Decidable (∀ running ∈ pool.tasks i, running.1.Fresh pool.store running.2))

theorem drawnBy_created
    (hgoal : task.goal = .encrypt ∨ task.goal = .create) (hkey : task.env.dek.key = .ok key) :
    Pool.drawnBy task (.haveKek kek) = some (.drew task.tenantId task.env.dek.id.toString key) := by
  unfold Pool.drawnBy
  rcases hgoal with hgoal | hgoal
  · rw [hgoal, hkey]
  · rw [hgoal, hkey]

theorem drawnBy_rotated (hgoal : task.goal = .rotate keyId) (hkey : task.env.dek.key = .ok key) :
    Pool.drawnBy task (.haveKek kek) = some (.drew task.tenantId keyId key) := by
  unfold Pool.drawnBy
  rw [hgoal, hkey]

theorem handedBy_encrypt (hgoal : task.goal = .encrypt) (s : KekStore)
    (keyId : String) : Pool.handedBy task s (.keyId keyId) =
      some (.handed task.tenantId keyId ((s.deks.lookup keyId).map DekEntry.rawDek)) := by
  unfold Pool.handedBy
  rw [hgoal]

theorem operations_succ (h : operations < dekMaxOperations) :
    operations + 1 ≤ dekMaxOperations ∧ (operations + 1).toNat = operations.toNat + 1 := by
  have hlt := UInt64.lt_iff_toNat_lt.mp h
  have hmax : dekMaxOperations.toNat = 100000 := rfl
  have hsucc : (operations + 1).toNat = operations.toNat + 1 := by
    rw [UInt64.toNat_add, UInt64.toNat_one]
    omega
  refine ⟨UInt64.le_iff_toNat_le.mpr ?_, hsucc⟩
  omega

variable {pool : Pool}

theorem Usage.resume (h : Usage outs pool) (htask : pool.tasks i = some (task, phase))
    (hfresh : pool.Fresh (.resume i)) :
    Usage (outs ++ (pool.resume aes i task phase).2.toList) (pool.resume aes i task phase).1 := by
  have hsound := h.tasks i task phase htask
  have hstretch := (@advance_outcome aes task pool.store phase).perform
  unfold Pool.resume
  generalize perform (task.advance aes phase) pool.store = performed at hstretch ⊢
  obtain ⟨s', result⟩ := performed
  dsimp only at hstretch
  cases hstretch with
  | failed hquiet =>
    rw [Option.toList_none, List.append_nil]
    exact h.quiet hquiet fun _ _ hnone => (by cases hnone)
  | wentOn hquiet hmade hdrawn howned =>
    dsimp only
    rw [hdrawn, Option.toList_none, List.append_nil]
    refine h.quiet hquiet ?_
    rintro _ _ ⟨⟩
    refine ⟨⟨fun hgoal keyId hkeyId => ?_, fun keyId hgoal _ => ?_⟩, fun keyId hgoal hkeyId => ?_⟩
    · exact hsound.made hgoal keyId (hmade ▸ hkeyId)
    · by_cases hphase : phase = .start
      · exact howned hphase keyId hgoal
      · exact hsound.rotating keyId hgoal hphase
    · exact ⟨task, phase, htask, hgoal, hmade ▸ hkeyId⟩
  | ended hquiet hhanded =>
    dsimp only
    rw [hhanded, Option.toList_none, List.append_nil]
    exact h.quiet hquiet fun _ _ hnone => (by cases hnone)
  | @created kek key wrapped hphase hgoal hkey hs' =>
    subst hphase hs'
    obtain ⟨hunused, hnew⟩ := hfresh _ htask
    replace hnew := hnew hgoal
    have hlookup : pool.store.deks.lookup task.env.dek.id.toString = none :=
      AList.lookup_eq_none.mpr hnew
    have hdraws : Usage.Draws pool.store
        (pool.store.cacheDek task.env.dek.id.toString ⟨key, [], wrapped, task.tenantId, 1⟩)
        task.tenantId task.env.dek.id.toString key :=
      ⟨⟨_, rfl, rfl, rfl, fun old hold => by rw [hlookup] at hold; cases hold⟩, rfl⟩
    dsimp only
    rw [drawnBy_created hgoal hkey, Option.toList_some]
    refine h.drew hdraws
      (KekStore.Unused.not_mem (hunused key (by simp [hkey, Except.toOption]))) ?_
    rintro _ _ ⟨⟩
    refine ⟨⟨fun _ keyId hmade => ?_, fun keyId hrotate => ?_⟩, fun keyId _ hmade => ?_⟩
    · cases hmade
      refine ⟨hdraws.owned, ?_, fun t current hcurrent => ?_⟩
      · rw [Usage.count_drew]
        exact h.count_of_not_mem hnew
      · intro heq
        obtain ⟨-, -, entry, hentry, -⟩ := h.current t current hcurrent
        rw [heq] at hentry
        exact hnew (mem_of_lookup hentry)
    · rw [hrotate] at hgoal
      rcases hgoal with hgoal | hgoal <;> cases hgoal
    · cases hmade
      exact hnew
  | @rotated kek key keyId wrapped entry hphase hgoal hkey hentry hs' =>
    subst hphase hs'
    obtain ⟨hunused, -⟩ := hfresh _ htask
    obtain ⟨old, hold, htenant⟩ := hsound.rotating keyId hgoal (by simp)
    rw [hentry, Option.some.injEq] at hold
    subst hold
    have hdraws : Usage.Draws pool.store (pool.store.cacheDek keyId (entry.rotate key wrapped))
        task.tenantId keyId key := by
      refine ⟨⟨_, rfl, htenant, rfl, fun old hold => ?_⟩, rfl⟩
      rw [hentry, Option.some.injEq] at hold
      subst hold
      refine ⟨htenant, fun k hk => ?_⟩
      rcases List.mem_cons.mp hk with rfl | hk
      · simp [DekEntry.rotate]
      · simp [DekEntry.rotate, hk]
    dsimp only
    rw [drawnBy_rotated hgoal hkey, Option.toList_some]
    refine h.drew hdraws
      (KekStore.Unused.not_mem (hunused key (by simp [hkey, Except.toOption]))) ?_
    rintro _ _ ⟨⟩
    refine ⟨⟨fun hencrypt => ?_, fun id hrotate _ => ?_⟩, fun _ _ hmade => (by cases hmade)⟩
    · rw [hgoal] at hencrypt
      cases hencrypt
    · rw [hgoal, Goal.rotate.injEq] at hrotate
      subst hrotate
      exact hdraws.keeps ⟨entry, hentry, htenant⟩
  | used hgoal huses =>
    obtain ⟨current, hcurrent, hlt, rfl, rfl⟩ := huses
    obtain ⟨-, hcount, howned⟩ := h.current task.tenantId current hcurrent
    obtain ⟨hle, hsucc⟩ := operations_succ hlt
    dsimp only
    rw [handedBy_encrypt hgoal, Option.toList_some]
    refine h.handOut rfl rfl hle (by rw [hcount, hsucc]) howned fun j _ hwaits => ?_
    obtain ⟨task', phase', htask', hgoal', hmade'⟩ := hwaits
    exact ((h.tasks j task' phase' htask').made hgoal' _ hmade').2.2 _ current hcurrent rfl
  | @installed keyId hgoal hphase hs' =>
    subst hphase hs'
    obtain ⟨howned, hzero, -⟩ := hsound.made hgoal keyId rfl
    dsimp only
    rw [handedBy_encrypt hgoal, Option.toList_some]
    refine h.handOut rfl rfl (by decide) (by rw [hzero]; rfl) howned fun j hj hwaits => ?_
    exact hj (h.apart j i keyId hwaits ⟨task, _, htask, hgoal, rfl⟩)

theorem Usage.step (h : Usage outs pool) {event : PoolEvent} (hfresh : pool.Fresh event) :
    Usage (outs ++ (pool.step aes event).2.toList) (pool.step aes event).1 := by
  cases event with
  | spawn i task =>
    simp only [Pool.step]
    split
    · simpa using h
    · rw [Option.toList_none, List.append_nil]
      refine h.quiet (.refl _) ?_
      rintro _ _ ⟨⟩
      exact ⟨⟨fun _ _ hmade => (by cases hmade), fun _ _ hphase => absurd rfl hphase⟩,
        fun _ _ hmade => (by cases hmade)⟩
  | resume i =>
    simp only [Pool.step]
    split
    · next task phase htask => exact h.resume htask hfresh
    · simpa using h

/-- No data key is handed out beyond its limit, in any interleaving. -/
theorem run_usage (hs : s.currentDek = ∅) {events : List PoolEvent}
    (hfresh : Along (Pool.step aes) Pool.Fresh (Pool.start s) events) :
    Usage (Pool.outputs aes (Pool.start s) events) (run (Pool.step aes) (Pool.start s) events) := by
  refine hfresh.history (fun served pool => Usage (served.filterMap Prod.snd) pool) ?_ (.start hs)
  intro served pool event h hevent
  rw [filterMap_concat]
  exact h.step hevent

theorem Usage.handsBytes_le (h : Usage outs pool) (key : Key) :
    outs.countP (·.handsBytes key) ≤ dekMaxOperations.toNat := by
  by_cases hsome : ∃ out ∈ outs, out.handsBytes key = true
  · obtain ⟨out, hout, hbytes⟩ := hsome
    cases out with
    | drew => cases hbytes
    | handed tenantId keyId bytes =>
      obtain rfl : bytes = some key := of_decide_eq_true hbytes
      obtain ⟨_, ⟨⟩, hdrew⟩ := h.handed tenantId keyId _ hout
      refine (List.countP_mono_left fun out' hout' hbytes' => ?_).trans (h.bounded keyId)
      -- every other use of the bytes is one of the same id
      cases out' with
      | drew => cases hbytes'
      | handed tenantId' keyId' bytes' =>
        obtain rfl : bytes' = some key := of_decide_eq_true hbytes'
        obtain ⟨_, ⟨⟩, hdrew'⟩ := h.handed tenantId' keyId' _ hout'
        exact decide_eq_true (h.oneId _ _ _ _ key hdrew' hdrew)
  · have hzero : outs.countP (·.handsBytes key) = 0 :=
      List.countP_eq_zero.mpr fun out hout hbytes => hsome ⟨out, hout, hbytes⟩
    rw [hzero]
    exact Nat.zero_le _

/-- For every interleaving of tasks that encrypt, create DEKs and rotate them, from a
store without current DEKs: the same bytes are handed out at most `DEK_MAX_OPERATIONS`
times, as is the same key id, and the bytes a tenant is handed were drawn for the
tenant and the key id. -/
theorem bounded_key_usage (aes : Aes256Gcm) (s : KekStore) (hs : s.currentDek = ∅)
    (events : List PoolEvent) (hfresh : Along (Pool.step aes) Pool.Fresh (Pool.start s) events) :
    (∀ key, (Pool.outputs aes (Pool.start s) events).countP (·.handsBytes key) ≤
      dekMaxOperations.toNat) ∧
    (∀ keyId, (Pool.outputs aes (Pool.start s) events).countP (·.hands keyId) ≤
      dekMaxOperations.toNat) ∧
    ∀ tenantId keyId bytes, .handed tenantId keyId bytes ∈ Pool.outputs aes (Pool.start s) events →
      ∃ key, bytes = some key ∧
        .drew tenantId keyId key ∈ Pool.outputs aes (Pool.start s) events := by
  have h := run_usage hs hfresh
  exact ⟨h.handsBytes_le, h.bounded, h.handed⟩

/-- A tenant's two first encryptions overlap and both make a DEK; the one that is
installed is rotated then, and used again. -/
def overlapping : List PoolEvent :=
  let both := [PoolEvent.resume 0, .resume 1]
  [.spawn 0 ⟨"acme", .encrypt, .repeated 2 .nil .max⟩,
    .spawn 1 ⟨"acme", .encrypt, .repeated 3 .nil .nil⟩] ++
  both ++ both ++ both ++ both ++ both ++ both ++ both ++
  [.spawn 2 ⟨"acme", .rotate Uuid.nil.toString, .repeated 4 .nil .nil⟩,
    .resume 2, .resume 2, .resume 2, .spawn 3 ⟨"acme", .encrypt, .repeated 5 .nil .nil⟩, .resume 3]

def unsealed : KekStore := withSeal (Seal.unsealWithRootKey Seal.new (.repeated 32 1)) none

theorem bounded_key_usage_overlapping : Pool.outputs keyedCipher (Pool.start unsealed) overlapping =
      [.drew "acme" Uuid.nil.toString (.repeated 32 3),
        .drew "acme" Uuid.max.toString (.repeated 32 2),
        .handed "acme" Uuid.nil.toString (some (.repeated 32 3)),
        .handed "acme" Uuid.nil.toString (some (.repeated 32 3)),
        .drew "acme" Uuid.nil.toString (.repeated 32 4),
        .handed "acme" Uuid.nil.toString (some (.repeated 32 4))] ∧
    ∀ key, (Pool.outputs keyedCipher (Pool.start unsealed) overlapping).countP (·.handsBytes key) ≤
      dekMaxOperations.toNat :=
  ⟨by decide +kernel,
    (bounded_key_usage keyedCipher unsealed rfl overlapping (by decide +kernel)).1⟩

end WslVault.CryptoService
