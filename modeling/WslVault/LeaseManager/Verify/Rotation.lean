import WslVault.LeaseManager.Rotation
import WslVault.Storage.Verify.SecretLifecycle

/-!
# Rotations that nobody confirms

A rotation leaves the status `pending_activation` only by its confirmation, which is refused
once the window has passed. Nothing sets the status `expired`.
-/

namespace WslVault.Storage

open Core Base

def Op.now : Op → Timestamp
  | upsert now _ _ => now
  | initiate now _ _ => now
  | confirm now _ _ => now
  | rollback now _ _ _ _ => now
  | softDelete now _ _ => now
  | destroy now _ _ => now
  | revoke now _ _ => now
  | markPending now _ => now

/-- What a transaction makes of a rotation: one whose window is open is confirmed, and one
that does not wait is completed. -/
def RotationRow.After (op : Op) (r r' : RotationRow) : Prop :=
  r' = r ∨ r'.secretId = r.secretId ∧ ((r'.status = .confirmed ∧ op.now < r.expiresAt) ∨
    (r'.status = .completed ∧ r.waiting = false))

namespace Db

theorem mem_updateSecret {db : Db} {now : Timestamp} {id : Uuid} {s' : SecretRow}
    {f : SecretRow → SecretRow} (hf : ∀ s, (f s).pathKey = s.pathKey) :
    s' ∈ (db.updateSecret now id f hf).secrets ↔
      ∃ s ∈ db.secrets, (if s.id = id then (f s).touch now else s) = s' := by
  have hmem := Table.mem_update (t := db.secrets) (p := fun s => decide (s.id = id))
    (f := fun s => (f s).touch now) hf (x := s')
  simp only [decide_eq_true_eq] at hmem
  exact hmem

/-- The rotations are still there, and a new one waits for a secret whose status says so. -/
def Rotates (op : Op) (db db' : Db) : Prop := ∃ f : RotationRow → RotationRow,
  (∀ r ∈ db.rotations, f r ∈ db'.rotations ∧ r.After op (f r)) ∧
  ∀ r' ∈ db'.rotations, (∃ r ∈ db.rotations, f r = r') ∨ (r'.status = .pendingActivation ∧
    ∃ s ∈ db'.secrets, s.id = r'.secretId ∧ s.rotationStatus ≠ .none)

theorem rotations_step (db : Db) (op : Op) : Rotates op db (db.step op).1 := by
  have hsame {db' : Db} (h : db'.rotations = db.rotations) : Rotates op db db' :=
    ⟨id, fun r hr => ⟨h ▸ hr, .inl rfl⟩, fun r hr => .inl ⟨r, h ▸ hr, rfl⟩⟩
  cases op with
  | upsert now freshId p =>
    refine transact_rule (P := Rotates _ db) (hsame rfl) fun db' out hok => ?_
    obtain ⟨db₁, s, versions, hrow, -, -, -, -, rfl, -⟩ := upsertSecret_eq_ok.mp hok
    exact hsame (pointers_upsertSecretRow hrow).2.1
  | initiate now freshId p =>
    refine transact_rule (P := Rotates _ db) (hsame rfl) fun db' out hok => ?_
    obtain ⟨s, versions, rotations, hs, -, -, -, hins, rfl⟩ := initiateRotation_eq_ok hok
    refine ⟨id, fun r hr => ⟨(Table.mem_of_insert? hins).mpr (.inl hr), .inl rfl⟩,
      fun r' hr' => ?_⟩
    rcases (Table.mem_of_insert? hins).mp hr' with hr' | rfl
    · exact .inl ⟨r', hr', rfl⟩
    · refine .inr ⟨rfl, s.setRotationPending.touch now, ?_, rfl,
        by simp [SecretRow.touch, SecretRow.setRotationPending]⟩
      exact (mem_updateSecret SecretRow.pathKey_setRotationPending).mpr ⟨s, hs, if_pos rfl⟩
  | confirm now rid by_ =>
    refine transact_rule (P := Rotates _ db) (hsame rfl) fun db' out hok => ?_
    obtain ⟨r, hr, rfl, -, hopen, rfl, -⟩ := confirmRotation_eq_ok.mp hok
    have hmem {x : RotationRow} :=
      Table.mem_update (t := db.rotations) (RotationRow.id_confirm now by_ (db.graceEnd now r))
        (p := (·.id == r.id)) (x := x)
    refine ⟨_, fun y hy => ⟨hmem.mpr ⟨y, hy, rfl⟩, ?_⟩, fun y hy => .inl (hmem.mp hy)⟩
    split
    · next heq =>
      rw [Table.eq_of_key hy hr (by simpa using heq)]
      exact .inr ⟨rfl, .inl ⟨rfl, hopen⟩⟩
    · exact .inl rfl
  | rollback now t path target by_ =>
    refine transact_rule (P := Rotates _ db) (hsame rfl) fun db' out hok => ?_
    obtain ⟨s, v, versions, -, -, -, -, -, -, -, rfl, -⟩ := rollbackSecret_eq_ok.mp hok
    exact hsame rfl
  | revoke now batchSize picked =>
    have hmem {x : RotationRow} :=
      Table.mem_update (t := db.rotations) (RotationRow.id_complete now)
        (p := fun r => (db.toRevoke now batchSize picked).any (·.id == r.id)) (x := x)
    refine ⟨_, fun y hy => ⟨hmem.mpr ⟨y, hy, rfl⟩, ?_⟩, fun y hy => .inl (hmem.mp hy)⟩
    split
    · next hp => exact .inr ⟨rfl, .inr ⟨rfl, waiting_of_toRevoke hy hp⟩⟩
    · exact .inl rfl
  | softDelete | destroy | markPending => exact hsame rfl

theorem mem_rotations_step {db : Db} {r : RotationRow} (hr : r ∈ db.rotations)
    (hw : r.waiting = true) {op : Op} (hexpired : r.expiresAt ≤ op.now) :
    r ∈ (db.step op).1.rotations := by
  obtain ⟨f, hkept, -⟩ := rotations_step db op
  obtain ⟨hmem, heq | ⟨-, ⟨-, hopen⟩ | ⟨-, hidle⟩⟩⟩ := hkept r hr
  · exact heq ▸ hmem
  · exact absurd hexpired (Int.not_le.mpr hopen)
  · exact absurd hw (Bool.eq_false_iff.mp hidle)

theorem initiateRotation_of_waiting {db : Db} (h : db.lifecycle.Inv) {r : RotationRow}
    (hr : r ∈ db.rotations) (hw : r.waiting = true) {p : InitiateParams}
    (ht : p.tenantId = r.tenantId) (hpath : p.path = r.path) (now : Timestamp) (freshId : Uuid) :
    db.initiateRotation now freshId p = .error (.rotationPending p.path) := by
  obtain ⟨x, hx, hid, hkey⟩ := h.rotationOwned r hr
  obtain ⟨s, hs, rfl⟩ := List.mem_map.mp hx
  have hfind : db.findSecret p.tenantId p.path = .ok s :=
    findSecret_eq_ok.mpr ⟨hs, by rw [ht, hpath]; exact hkey⟩
  have hpending : db.rotationPending s.id = true :=
    rotationPending_iff.mpr ⟨r, hr, hid.symm, hw⟩
  have hreject : db.rejectPending s.id p.path = .error (.rotationPending p.path) := by
    rw [rejectPending, if_pos hpending]
  rw [initiateRotation, hfind, ok_bind, hreject, error_bind]

end Db

end WslVault.Storage

namespace WslVault.LeaseManager

open Core Base Storage

def Event.NotBefore (t : Timestamp) : Event → Prop
  | request op => t ≤ op.now
  | sweep now => t ≤ now
  | notify now _ _ => t ≤ now
  | cleanup now _ => t ≤ now

instance (t : Timestamp) : DecidablePred (Event.NotBefore t)
  | .request op => inferInstanceAs (Decidable (t ≤ op.now))
  | .sweep now => inferInstanceAs (Decidable (t ≤ now))
  | .notify now _ _ => inferInstanceAs (Decidable (t ≤ now))
  | .cleanup now _ => inferInstanceAs (Decidable (t ≤ now))

namespace System

theorem notifySecret_cases (maxRetries : Nat) (db : Db) (now : Timestamp) (secret : DueSecret)
    (attempts : List Attempt) (markFails : Bool) :
    notifySecret maxRetries db now secret attempts markFails = db ∨
      notifySecret maxRetries db now secret attempts markFails = db.markPending now secret.id := by
  unfold notifySecret
  split
  · split
    · exact .inr rfl
    · exact .inl rfl
  · exact .inl rfl

variable {maxRetries : Nat}

theorem db_step {P : Db → Prop} {s : System} {e : Event} (hs : P s.db)
    (hrequest : ∀ op, e = .request op → P (s.db.step op).1)
    (hmark : ∀ now secretId, P (s.db.markPending now secretId))
    (hcleanup : ∀ now picked, P (runVersionCleanup s.db now picked)) :
    P (s.step maxRetries e).1.db := by
  cases e with
  | request op => exact hrequest op rfl
  | sweep now =>
    simp only [step]
    split
    · exact hs
    · exact hs
  | notify now attempts markFails =>
    simp only [step]
    cases s.due with
    | nil => exact hs
    | cons secret rest =>
      rcases notifySecret_cases maxRetries s.db now secret attempts markFails with h | h
      · simpa only [h] using hs
      · simpa only [h] using hmark now secret.id
  | cleanup now picked => exact hcleanup now picked

variable (maxRetries) in
theorem inv_run (tenants : List Uuid) (es : List Event) :
    (run (step maxRetries) (start tenants) es).db.lifecycle.Inv := by
  refine run_invariant (step maxRetries) (fun s => s.db.lifecycle.Inv) (fun s e hs => ?_)
    (s := start tenants) Lifecycle.inv_empty es
  refine db_step (P := fun db => db.lifecycle.Inv) hs (fun op _ => Db.inv_step hs op)
    (fun now secretId => ?_) fun now picked => Db.inv_revoke hs now cleanupBatch picked
  exact (Db.lifecycle_markPending s.db now secretId).symm ▸ hs

/-- A rotation that waits for its confirmation stays until it expires. -/
theorem mem_rotations_run {s : System} {r : RotationRow} (hr : r ∈ s.db.rotations)
    (hw : r.waiting = true) {es : List Event} (hlater : ∀ e ∈ es, e.NotBefore r.expiresAt) :
    r ∈ (run (step maxRetries) s es).db.rotations := by
  refine (along_of_forall (step maxRetries) hlater).invariant
    (fun s => r ∈ s.db.rotations) (fun s e hs hlate => ?_) hr
  refine db_step (P := fun db => r ∈ db.rotations) hs (fun op heq => ?_) (fun _ _ => hs)
    fun now picked => Db.mem_rotations_revoke hs hw now cleanupBatch picked
  subst heq
  exact Db.mem_rotations_step hs hw hlate

/-- Once a rotation has gone unconfirmed past its window, no run of requests,
sweeps and cleanups lets its secret be rotated again. -/
theorem initiateRotation_refused_after_expiry (maxRetries : Nat) (tenants : List Uuid)
    (es later : List Event) (r : RotationRow)
    (hr : r ∈ (run (step maxRetries) (start tenants) es).db.rotations) (hw : r.waiting = true)
    (hlater : ∀ e ∈ later, e.NotBefore r.expiresAt) (p : Db.InitiateParams)
    (ht : p.tenantId = r.tenantId) (hpath : p.path = r.path) (now : Timestamp) (freshId : Uuid) :
    (run (step maxRetries) (start tenants) (es ++ later)).db.initiateRotation now freshId p =
      .error (.rotationPending p.path) := by
  have hinv := inv_run maxRetries tenants (es ++ later)
  have hmem : r ∈ (run (step maxRetries) (start tenants) (es ++ later)).db.rotations := by
    rw [run_append]
    exact mem_rotations_run hr hw hlater
  exact Db.initiateRotation_of_waiting hinv hmem hw ht hpath now freshId

theorem initiateRotation_refused_a_minute_later :
    let put := { Db.firstPut with secretType := .rotationRequired }
    let rotate := { Db.firstRotation with timeoutSecs := some 60 }
    let es : List Event := [.request (.upsert 0 .nil put), .request (.initiate 0 .nil rotate)]
    let later : List Event := [.sweep (seconds 60), .notify (seconds 60) [.response 200] false,
      .cleanup (seconds 61) []]
    (run (step 3) (start [.nil]) (es ++ later)).db.initiateRotation (seconds 62) .max rotate =
      .error (.rotationPending "app/db") := by
  intro put rotate es later
  refine initiateRotation_refused_after_expiry 3 [.nil] es later
    (rotate.rotation 0 .nil .nil 1 2) ?_ rfl ?_ rotate rfl rfl _ _
  · exact List.mem_singleton.mpr rfl
  · decide

/-- The confirmation comes too late, the sweep and the cleanup run, and the
next rotation is refused a day later. -/
theorem expired_rotation_blocks_next :
    let rotate := { Db.firstRotation with timeoutSecs := some 60 }
    let s := run (step 3) (start [.nil]) [.request (.upsert 0 .nil Db.firstPut),
      .request (.initiate 0 .nil rotate), .sweep (seconds 60), .cleanup (seconds 60) []]
    (s.step 3 (.request (.confirm (seconds 60) .nil "op"))).2 = some (.rotationNotFound .nil) ∧
      (s.step 3 (.request (.initiate (seconds 86400) .max rotate))).2 =
        some (.rotationPending "app/db") := by
  decide

end System

end WslVault.LeaseManager
