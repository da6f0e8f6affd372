import WslVault.LeaseManager.Verify.Rotation

/-!
# Scheduled rotation after the first one

The query of the sweep looks only at secrets whose `rotation_status` is `none`, and nothing
sets `none` again. So after its first confirmed rotation a secret is not selected any more.
-/

namespace WslVault.Storage

open Core Base

namespace Db

variable {db : Db} {now : Timestamp} {id : Uuid} {s' : SecretRow} (op : Op)

/-- How a row of the secrets after a transaction came by its rotation status. -/
inductive StatusChange (db db' : Db) (op : Op) (s' : SecretRow) : Prop where
  | created (hstatus : s'.rotationStatus = .none) (hnew : ∀ s ∈ db.secrets, s.id ≠ s'.id)
  | kept (s : SecretRow) (hs : s ∈ db.secrets) (hid : s.id = s'.id)
      (hstatus : s'.rotationStatus = s.rotationStatus)
  | rotated (hstatus : s'.rotationStatus ≠ .none) (r : RotationRow) (hr : r ∈ db'.rotations)
      (hid : r.secretId = s'.id)
  | marked (hstatus : s'.rotationStatus ≠ .none) (now : Timestamp)
      (hop : op = .markPending now s'.id)

inductive RotationChange (db db' : Db) (r' : RotationRow) : Prop where
  | kept (r : RotationRow) (hr : r ∈ db.rotations) (hid : r.secretId = r'.secretId)
      (hstatus : r'.status = r.status ∨ r'.status = .confirmed ∨ r'.status = .completed)
  | initiated (hstatus : r'.status = .pendingActivation) (s' : SecretRow) (hs' : s' ∈ db'.secrets)
      (hid : s'.id = r'.secretId) (hpending : s'.rotationStatus ≠ .none)

theorem status_setCurrentVersion {n : Int} (hs' : s' ∈ (db.setCurrentVersion now id n).secrets) :
    ∃ s ∈ db.secrets, s.id = s'.id ∧ s'.rotationStatus = s.rotationStatus := by
  obtain ⟨s, hs, rfl⟩ := (mem_updateSecret (SecretRow.pathKey_setCurrentVersion n)).mp hs'
  refine ⟨s, hs, ?_⟩
  split
  · exact ⟨rfl, rfl⟩
  · exact ⟨rfl, rfl⟩

theorem status_upsertSecretRow {db₁ : Db} {freshId : Uuid} {p : UpsertParams} {s : SecretRow}
    (hrow : db.upsertSecretRow now freshId p = .ok (db₁, s)) (hs' : s' ∈ db₁.secrets) :
    (∃ s ∈ db.secrets, s.id = s'.id ∧ s'.rotationStatus = s.rotationStatus) ∨
      (s'.rotationStatus = .none ∧ ∀ s ∈ db.secrets, s.id ≠ s'.id) := by
  rcases upsertSecretRow_eq_ok.mp hrow with
    ⟨s₀, -, -, -, rfl⟩ | ⟨-, hid, -, rfl, secrets, hins, rfl⟩
  · obtain ⟨s₁, hs₁, rfl⟩ := (Table.mem_update (p.pathKey_refresh now)).mp hs'
    refine .inl ⟨s₁, hs₁, ?_⟩
    split
    · exact ⟨rfl, rfl⟩
    · exact ⟨rfl, rfl⟩
  · rcases (Table.mem_of_insert? hins).mp hs' with hs' | rfl
    · exact .inl ⟨s', hs', rfl, rfl⟩
    · exact .inr ⟨rfl, hid⟩

theorem status_markPending (hs' : s' ∈ (db.markPending now id).secrets) :
    s' ∈ db.secrets ∨ (s'.id = id ∧ s'.rotationStatus ≠ .none) := by
  obtain ⟨s, hs, rfl⟩ := (mem_updateSecret SecretRow.pathKey_setRotationPending).mp hs'
  split
  · next hid => exact .inr ⟨hid, by simp [SecretRow.touch, SecretRow.setRotationPending]⟩
  · exact .inl hs

theorem statusChange_step (hs' : s' ∈ (db.step op).1.secrets) :
    StatusChange db (db.step op).1 op s' := by
  let P (op : Op) (db' : Db) : Prop := ∀ s' ∈ db'.secrets, StatusChange db db' op s'
  have hsame : ∀ op, P op db := fun op s hs => .kept s hs rfl rfl
  suffices h : P op (db.step op).1 from h s' hs'
  cases op with
  | upsert now freshId p =>
    refine transact_rule (P := P _) (hsame _) fun db' out hok s' hs' => ?_
    obtain ⟨db₁, s, versions, hrow, -, -, -, -, rfl, -⟩ := upsertSecret_eq_ok.mp hok
    have hmoved : s' ∈ ({ db₁ with versions := versions }.setCurrentVersion now s.id
      (s.currentVersion + 1)).secrets := hs'
    obtain ⟨s₁, hs₁, hid, hstatus⟩ := status_setCurrentVersion hmoved
    rcases status_upsertSecretRow hrow hs₁ with ⟨s₀, hs₀, hid₀, hst₀⟩ | ⟨hnone, hnew⟩
    · exact .kept s₀ hs₀ (hid₀.trans hid) (hstatus.trans hst₀)
    · exact .created (hstatus.trans hnone) (hid ▸ hnew)
  | initiate now freshId p =>
    refine transact_rule (P := P _) (hsame _) fun db' out hok s' hs' => ?_
    obtain ⟨s, versions, rotations, -, -, -, -, hins, rfl⟩ := initiateRotation_eq_ok hok
    rcases status_markPending hs' with hs' | ⟨hid, hne⟩
    · exact .kept s' hs' rfl rfl
    · exact .rotated hne _ ((Table.mem_of_insert? hins).mpr (.inr rfl)) hid.symm
  | confirm now rid by_ =>
    refine transact_rule (P := P _) (hsame _) fun db' out hok s' hs' => ?_
    obtain ⟨r, hr, rfl, -, -, rfl, -⟩ := confirmRotation_eq_ok.mp hok
    obtain ⟨s, hs, rfl⟩ := (mem_updateSecret (SecretRow.pathKey_rotate now r.newVersion)).mp hs'
    split
    · next hid =>
      refine .rotated (by simp [SecretRow.touch, SecretRow.rotate])
        (r.confirm now by_ (db.graceEnd now r)) ?_ hid.symm
      exact (Table.mem_update (RotationRow.id_confirm now by_ (db.graceEnd now r))).mpr
        ⟨r, hr, by simp⟩
    · exact .kept s hs rfl rfl
  | rollback now t path target by_ =>
    refine transact_rule (P := P _) (hsame _) fun db' out hok s' hs' => ?_
    obtain ⟨s, v, versions, -, -, -, -, -, -, -, rfl, -⟩ := rollbackSecret_eq_ok.mp hok
    obtain ⟨s₁, hs₁, hid, hstatus⟩ := status_setCurrentVersion hs'
    exact .kept s₁ hs₁ hid hstatus
  | softDelete now sid ns => exact fun s hs => .kept s hs rfl rfl
  | destroy now sid ns => exact fun s hs => .kept s hs rfl rfl
  | revoke now batchSize picked => exact fun s hs => .kept s hs rfl rfl
  | markPending now sid =>
    intro s' hs'
    rcases status_markPending hs' with hs' | ⟨rfl, hne⟩
    · exact .kept s' hs' rfl rfl
    · exact .marked hne now rfl

theorem rotationChange_step {r' : RotationRow} (hr' : r' ∈ (db.step op).1.rotations) :
    RotationChange db (db.step op).1 r' := by
  obtain ⟨f, hkept, hall⟩ := rotations_step db op
  rcases hall r' hr' with ⟨r, hr, rfl⟩ | ⟨hstatus, s', hs', hid, hpending⟩
  · rcases (hkept r hr).2 with heq | ⟨hid, ⟨hstatus, -⟩ | ⟨hstatus, -⟩⟩
    · exact .kept r hr (by rw [heq]) (by rw [heq]; exact .inl rfl)
    · exact .kept r hr hid.symm (.inr (.inl hstatus))
    · exact .kept r hr hid.symm (.inr (.inr hstatus))
  · exact .initiated hstatus s' hs' hid hpending

theorem rotation_kept_step {r : RotationRow} (hr : r ∈ db.rotations) :
    ∃ r' ∈ (db.step op).1.rotations, r'.secretId = r.secretId := by
  obtain ⟨f, hkept, -⟩ := rotations_step db op
  refine ⟨f r, (hkept r hr).1, ?_⟩
  rcases (hkept r hr).2 with heq | ⟨hid, -⟩
  · rw [heq]
  · exact hid

/-! ## What the rotation status says -/

/-- A secret with the status `none` has had no rotation, and the rotations of
the others have one of three statuses. -/
structure Tracked (db : Db) : Prop where
  inv : db.lifecycle.Inv
  untouched : ∀ s ∈ db.secrets, s.rotationStatus = .none → ∀ r ∈ db.rotations, r.secretId ≠ s.id
  statuses : ∀ r ∈ db.rotations,
    r.status = .pendingActivation ∨ r.status = .confirmed ∨ r.status = .completed

theorem tracked_step (h : db.Tracked) (op : Op) : (db.step op).1.Tracked := by
  have hinv := inv_step h.inv op
  refine ⟨hinv, fun s' hs' hnone r' hr' hid => ?_, fun r' hr' => ?_⟩
  · cases rotationChange_step op hr' with
    | kept r hr hrid _ =>
      cases statusChange_step op hs' with
      | created _ hnew =>
        obtain ⟨x, hx, hxid, -⟩ := h.inv.rotationOwned r hr
        obtain ⟨s, hs, rfl⟩ := List.mem_map.mp hx
        exact hnew s hs (hxid.trans (hrid.trans hid))
      | kept s hs hsid hstatus =>
        exact h.untouched s hs (hstatus.symm.trans hnone) r hr
          (hrid.trans (hid.trans hsid.symm))
      | rotated hne => exact hne hnone
      | marked hne => exact hne hnone
    | initiated _ s hs hsid hpending =>
      -- the ids are unique, so this is the same row
      have heq : s.pointer = s'.pointer := hinv.ids s.pointer (List.mem_map_of_mem hs) s'.pointer
        (List.mem_map_of_mem hs') (hsid.trans hid)
      rw [Table.eq_of_key hs hs' (congrArg Pointer.pathKey heq)] at hpending
      exact hpending hnone
  · cases rotationChange_step op hr' with
    | kept r hr _ hstatus =>
      rcases hstatus with hstatus | hstatus
      · exact hstatus ▸ h.statuses r hr
      · exact .inr hstatus
    | initiated hstatus => exact .inl hstatus

/-- A status of the secret other than `none` comes with a rotation of it. -/
def Explained (id : Uuid) (db : Db) : Prop :=
  ∀ s ∈ db.secrets, s.id = id → s.rotationStatus ≠ .none → ∃ r ∈ db.rotations, r.secretId = id

theorem explained_step (h : Explained id db) {op : Op} (hmark : ∀ now, op ≠ .markPending now id) :
    Explained id (db.step op).1 := by
  intro s' hs' hid hne
  cases statusChange_step op hs' with
  | created hnone => exact absurd hnone hne
  | kept s hs hsid hstatus =>
    obtain ⟨r, hr, hrid⟩ := h s hs (hsid.trans hid) (hstatus ▸ hne)
    obtain ⟨r', hr', hrid'⟩ := rotation_kept_step op hr
    exact ⟨r', hr', hrid'.trans hrid⟩
  | rotated _ r hr hrid => exact ⟨r, hr, hrid.trans hid⟩
  | marked _ now hop => exact absurd (hid ▸ hop) (hmark now)

end Db

end WslVault.Storage

namespace WslVault.LeaseManager

open Core Base Storage

/-- The event delivers a webhook for the secret, or marks it as notified. -/
def Dispatches (maxRetries : Nat) (id : Uuid) (s : System) : Event → Prop
  | .request (.markPending _ secretId) => secretId = id
  | .notify _ attempts _ =>
    ∃ secret, s.due.head? = some secret ∧ secret.id = id ∧ secret.webhookUrl.isSome = true ∧
      dispatchWebhookWithRetry maxRetries attempts = true
  | _ => False

def Confirms (id : Uuid) (s : System) : Event → Prop
  | .request (.confirm now rotationId by_) =>
    ∃ out, s.db.confirmRotation now rotationId by_ = .ok out ∧
      ∃ r ∈ s.db.rotations, r.id = rotationId ∧ r.secretId = id
  | _ => False

namespace System

variable {maxRetries : Nat} {id : Uuid}

theorem db_step_cases (maxRetries : Nat) (s : System) (e : Event) :
    (s.step maxRetries e).1.db = s.db ∨ ∃ op, (s.step maxRetries e).1.db = (s.db.step op).1 ∧
        ∀ now id, op = .markPending now id → Dispatches maxRetries id s e := by
  cases e with
  | request op =>
    refine .inr ⟨op, rfl, fun now id hop => ?_⟩
    subst hop
    rfl
  | sweep now =>
    left
    simp only [step]
    split
    · rfl
    · rfl
  | notify now attempts markFails =>
    cases hdue : s.due with
    | nil =>
      left
      simp only [step, hdue]
    | cons secret rest =>
      simp only [step, hdue, notifySecret]
      split
      · next url hurl =>
        split
        · next hdelivered =>
          refine .inr ⟨.markPending now secret.id, rfl, fun now' id hop => ?_⟩
          cases hop
          rw [Bool.and_eq_true] at hdelivered
          exact ⟨secret, by rw [hdue]; rfl, rfl, by rw [hurl]; rfl, hdelivered.1⟩
        · exact .inl rfl
      · exact .inl rfl
  | cleanup now picked =>
    refine .inr ⟨.revoke now cleanupBatch picked, rfl, fun now' id hop => ?_⟩
    cases hop

theorem tracked_run (maxRetries : Nat) (tenants : List Uuid) (es : List Event) :
    (run (step maxRetries) (start tenants) es).db.Tracked := by
  refine run_invariant (step maxRetries) (fun s => s.db.Tracked) (fun s e hs => ?_)
    (s := start tenants) ⟨Lifecycle.inv_empty, fun s hs => absurd hs (Table.not_mem_empty s),
      fun r hr => absurd hr (Table.not_mem_empty r)⟩ es
  rcases db_step_cases maxRetries s e with h | ⟨op, h, -⟩
  · exact h ▸ hs
  · exact h ▸ Db.tracked_step hs op

/-- Without a dispatch, a status comes from a rotation. -/
theorem explained_run {s : System} (hs : Db.Explained id s.db) {es : List Event}
    (hquiet : Along (step maxRetries) (fun s e => ¬ Dispatches maxRetries id s e) s es) :
    Db.Explained id (run (step maxRetries) s es).db := by
  refine hquiet.invariant (fun s => Db.Explained id s.db) (fun s e hs hno => ?_) hs
  rcases db_step_cases maxRetries s e with h | ⟨op, h, hmark⟩
  · exact h ▸ hs
  · exact h ▸ Db.explained_step hs fun now hop => hno (hmark now id hop)

theorem mem_dueSecrets {db : Db} {s : SecretRow} (hs : s ∈ db.secrets) (now : Timestamp) :
    DueSecret.ofRow s ∈ dueSecrets db now ↔
      s.secretType = .rotationRequired ∧ s.nextRotationAt.any (· ≤ now) = true ∧
        s.rotationStatus = .none := by
  have hrow : ∀ s' ∈ db.secrets, DueSecret.ofRow s' = DueSecret.ofRow s → s' = s := by
    intro s' hs' heq
    simp only [DueSecret.ofRow, DueSecret.mk.injEq] at heq
    exact Table.eq_of_key hs' hs (Prod.ext heq.2.2.1 heq.2.1)
  simp only [dueSecrets, List.mem_map, Table.mem_select, Bool.and_eq_true, beq_iff_eq]
  constructor
  · rintro ⟨s', ⟨hs', ⟨htype, hnext⟩, hstatus⟩, heq⟩
    rw [← hrow s' hs' heq]
    exact ⟨htype, hnext, hstatus⟩
  · rintro ⟨htype, hnext, hstatus⟩
    exact ⟨s, ⟨hs, ⟨htype, hnext⟩, hstatus⟩, rfl⟩

theorem explained_of_confirms {s : System} {e : Event} (h : Confirms id s e) :
    Db.Explained id (s.step maxRetries e).1.db := by
  cases e with
  | request op =>
    cases op with
    | confirm now rotationId by_ =>
      obtain ⟨-, -, r, hr, -, hid⟩ := h
      obtain ⟨r', hr', hid'⟩ := Db.rotation_kept_step (.confirm now rotationId by_) hr
      exact fun _ _ _ _ => ⟨r', hr', hid'.trans hid⟩
    | _ => exact h.elim
  | _ => exact h.elim

/-- In every run: an overdue secret of which no rotation is pending, and for
which no webhook was delivered since its last confirmed rotation or since the
start, is selected exactly as long as no rotation of it has been confirmed. -/
theorem due_iff_never_confirmed (maxRetries : Nat) (tenants : List Uuid)
    (before since : List Event) (now : Timestamp) (s : SecretRow)
    (hs : s ∈ (run (step maxRetries) (start tenants) (before ++ since)).db.secrets)
    (htype : s.secretType = .rotationRequired) (_ : s.webhookUrl.isSome = true)
    (_ : s.rotationIntervalSeconds.isSome = true)
    (hdue : s.nextRotationAt.any (· ≤ now) = true)
    (hpending : (run (step maxRetries) (start tenants)
      (before ++ since)).db.rotationPending s.id = false)
    (hlast : before = [] ∨ ∃ es e, before = es ++ [e] ∧
      Confirms s.id (run (step maxRetries) (start tenants) es) e)
    (hquiet : Along (step maxRetries) (fun s' e => ¬ Dispatches maxRetries s.id s' e)
      (run (step maxRetries) (start tenants) before) since) :
    DueSecret.ofRow s ∈
        dueSecrets (run (step maxRetries) (start tenants) (before ++ since)).db now ↔
      ∀ r ∈ (run (step maxRetries) (start tenants) (before ++ since)).db.rotations,
        r.secretId = s.id → r.status ≠ .confirmed ∧ r.status ≠ .completed := by
  have htracked := tracked_run maxRetries tenants (before ++ since)
  have hstart : Db.Explained s.id (run (step maxRetries) (start tenants) before).db := by
    rcases hlast with rfl | ⟨es, e, rfl, hconfirms⟩
    · exact fun s' hs' => absurd hs' (Table.not_mem_empty s')
    · rw [run_concat]
      exact explained_of_confirms hconfirms
  have hexplained := explained_run hstart hquiet
  rw [← run_append] at hexplained
  rw [mem_dueSecrets hs now]
  constructor
  · rintro ⟨-, -, hnone⟩ r hr hid
    exact absurd hid (htracked.untouched s hs hnone r hr)
  · intro hnever
    refine ⟨htype, hdue, ?_⟩
    by_contra hne
    -- the rotation that explains the status is neither waiting nor confirmed
    obtain ⟨r, hr, hid⟩ := hexplained s hs rfl hne
    obtain ⟨hconfirmed, hcompleted⟩ := hnever r hr hid
    have hwaiting : r.status ≠ .pendingActivation := by
      intro hstatus
      have := Db.rotationPending_iff.mpr ⟨r, hr, hid, by rw [RotationRow.waiting, hstatus]; rfl⟩
      rw [hpending] at this
      cases this
    rcases htracked.statuses r hr with h | h | h
    · exact hwaiting h
    · exact hconfirmed h
    · exact hcompleted h

def everyMinute : UpsertParams :=
  { Db.firstPut with
    secretType := .rotationRequired, rotationInterval := some 60, webhookUrl := some "https://app" }

theorem due_before_first_rotation :
    DueSecret.ofRow (((everyMinute.newSecret 0 .nil).setCurrentVersion 1).touch 0) ∈
      dueSecrets (run (step 3) (start [.nil]) [.request (.upsert 0 .nil everyMinute)]).db
        (seconds 60) := by
  refine (due_iff_never_confirmed 3 [.nil] [] [.request (.upsert 0 .nil everyMinute)] (seconds 60)
    (((everyMinute.newSecret 0 .nil).setCurrentVersion 1).touch 0)
    (List.mem_singleton.mpr rfl) rfl rfl rfl (by decide) (by decide) (.inl rfl)
    ⟨fun h => h, trivial⟩).mpr fun r hr => ?_
  exact absurd hr (Table.not_mem_empty r)

/-- After one confirmed rotation the secret is never selected again, though the
next one is a quarter of an hour overdue, none is pending and no webhook was
ever sent. -/
theorem rotation_does_not_recur :
    let db := (run (step 3) (start [.nil]) [.request (.upsert 0 .nil everyMinute),
      .request (.initiate 0 .nil Db.firstRotation), .request (.confirm 0 .nil "op")]).db
    db.secrets.rows.map (fun s => (s.secretType, s.webhookUrl, s.rotationIntervalSeconds,
        s.nextRotationAt)) =
      [(.rotationRequired, some "https://app", some 60, some (seconds 60))] ∧
    db.rotationPending .nil = false ∧ dueSecrets db (seconds 960) = [] := by
  decide

end System

end WslVault.LeaseManager
