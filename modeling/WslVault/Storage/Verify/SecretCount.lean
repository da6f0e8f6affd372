import WslVault.Base.Run
import WslVault.Storage.QuotaStore
import WslVault.Storage.Verify.Functions

/-!
# How exact the count of a tenant's secrets is

The trigger on inserts and deletes keeps the count of a quota row there is. A row that it makes
itself leaves out the secret it was made for.
-/

namespace WslVault.Storage

open Core Base

/-- `shared.secrets`, the tenants it refers to, and the quota rows its trigger changes. -/
structure CountedSecrets where
  tenants : List Uuid
  secrets : Table SecretRow SecretRow.pathKey
  quotas : QuotaTable

inductive RowChange where
  | insert (row : SecretRow)
  | delete (key : Uuid × String)

namespace CountedSecrets

def change (c : CountedSecrets) : RowChange → Except SqlError CountedSecrets
  | .insert row => do
    refuseIf (c.secrets.rows.any (·.id == row.id)) (.uniqueViolation "secrets_pkey")
    let secrets ← okOr (c.secrets.insert? row) (.uniqueViolation "secrets_tenant_id_path_key")
    refuseIf (row.tenantId ∉ c.tenants) (.foreignKeyViolation "secrets" "secrets_tenant_id_fkey")
    let quotas ← updateSecretCount c.quotas .insert row.tenantId
    return { c with secrets, quotas }
  | .delete key =>
    match c.secrets.get? key with
    | none => .ok c
    | some row => do
      let quotas ← updateSecretCount c.quotas .delete row.tenantId
      return { c with secrets := c.secrets.delete (·.pathKey == key), quotas }

def step (c : CountedSecrets) (e : RowChange) : CountedSecrets × Option SqlError :=
  match c.change e with
  | .ok c' => (c', none)
  | .error e => (c, some e)

def count (c : CountedSecrets) (t : Uuid) : Nat := c.secrets.rows.countP (·.tenantId == t)

def recorded (c : CountedSecrets) (t : Uuid) : Option Int :=
  (c.quotas.get? t).map (·.currentSecretCount)

def Accurate (c : CountedSecrets) (t : Uuid) : Prop := ∀ n, c.recorded t = some n → n = c.count t

def countAfter (delta : Int) : Option Int → Option Int
  | some n => some (max 0 (n + delta))
  | none => if delta = 1 then some 0 else none

variable {c c' : CountedSecrets} {t : Uuid} {e : RowChange}

theorem count_updateSecretCount {quotas quotas' : QuotaTable} {op : TriggerOp} {tid : Uuid}
    {delta : Int} (hop : op.delta = some delta)
    (h : updateSecretCount quotas op tid = .ok quotas') (t : Uuid) :
    (quotas'.get? t).map (·.currentSecretCount) =
      if tid = t then countAfter delta ((quotas.get? t).map (·.currentSecretCount))
      else (quotas.get? t).map (·.currentSecretCount) := by
  simp only [updateSecretCount, hop] at h
  cases hget : quotas.get? tid with
  | some q =>
    simp only [hget, bind_eq_ok, pure_eq_ok, int4_eq_ok] at h
    obtain ⟨n, ⟨-, rfl⟩, rfl⟩ := h
    rw [setSecretCount, Table.get?_update]
    by_cases heq : tid = t
    · subst heq
      simp [hget, (Table.get?_eq_some.mp hget).2, QuotaRow.setCount, countAfter]
    · cases hother : quotas.get? t with
      | none => simp [heq]
      | some q' => simp [heq, (Table.get?_eq_some.mp hother).2, Ne.symm heq]
  | none =>
    simp only [hget] at h
    split_ifs at h with hone
    · split at h
      · next hinsert =>
        cases h
        rw [Table.get?_insert? hinsert]
        by_cases heq : tid = t
        · subst heq
          simp [hget, hone, countAfter]
        · simp [heq]
      · next hinsert =>
        obtain ⟨q, hq, hkey⟩ := Table.insert?_eq_none.mp hinsert
        exact absurd hkey (Table.get?_eq_none.mp hget q hq)
    · cases h
      by_cases heq : tid = t
      · subst heq
        simp [hget, hone, countAfter]
      · simp [heq]

theorem count_delete {key : Uuid × String} {row : SecretRow} (h : c.secrets.get? key = some row) :
    c.count t = (if row.tenantId = t then 1 else 0) +
      (c.secrets.delete (·.pathKey == key)).rows.countP (·.tenantId == t) := by
  have hdeleted : c.secrets.select (·.pathKey == key) = [row] := by
    refine Table.select_eq_singleton fun x => ?_
    rw [Table.get?_eq_some] at h
    rw [beq_iff_eq]
    exact ⟨fun hx => Table.eq_of_key hx.1 h.1 (hx.2.trans h.2.symm), fun hx => hx ▸ h⟩
  rw [count, List.countP_eq_countP_filter_add _ _ (·.pathKey == key), ← Table.select, hdeleted]
  simp [Table.delete]

/-- What the trigger adds to a tenant's count is what the statement adds to its secrets. -/
theorem step_cases (c : CountedSecrets) (e : RowChange) (t : Uuid) :
    (c.step e).1.recorded t = c.recorded t ∧ (c.step e).1.count t = c.count t ∨
      ∃ delta : Int, (c.step e).1.count t = c.count t + delta ∧
        (c.step e).1.recorded t = countAfter delta (c.recorded t) := by
  unfold step
  cases h : c.change e with
  | error e => exact .inl ⟨rfl, rfl⟩
  | ok c' =>
    cases e with
    | insert row =>
      simp only [change, bind_eq_ok, pure_eq_ok, okOr_eq_ok] at h
      obtain ⟨-, -, secrets, hsecrets, -, -, quotas, hquotas, rfl⟩ := h
      have hrecorded := count_updateSecretCount rfl hquotas t
      simp only [recorded, count, (Table.insert?_eq_some.mp hsecrets).2, List.countP_append,
        List.countP_singleton, beq_iff_eq]
      split_ifs at hrecorded ⊢ with heq
      · exact .inr ⟨1, by simp, hrecorded⟩
      · exact .inl ⟨hrecorded, rfl⟩
    | delete key =>
      rw [change] at h
      split at h
      · cases h
        exact .inl ⟨rfl, rfl⟩
      · next row hrow =>
        simp only [bind_eq_ok, pure_eq_ok] at h
        obtain ⟨quotas, hquotas, rfl⟩ := h
        have hrecorded := count_updateSecretCount rfl hquotas t
        rw [count_delete hrow]
        split_ifs at hrecorded ⊢ with heq
        · exact .inr ⟨-1, by dsimp only [count]; omega, hrecorded⟩
        · exact .inl ⟨hrecorded, by rw [count, Nat.zero_add]⟩

/-- An accurate count stays accurate. -/
theorem accurate_step {n : Int} (hn : c.recorded t = some n) (hc : c.Accurate t) :
    (c.step e).1.recorded t = some ((c.step e).1.count t : Int) := by
  have hn' := hc n hn
  obtain ⟨hrecorded, hcount⟩ | ⟨delta, hcount, hrecorded⟩ := step_cases c e t
  · rw [hrecorded, hcount, hn, hn']
  · rw [hrecorded, hn, countAfter, hn', ← hcount, max_eq_right (by omega)]

/-- The row that the trigger makes is short of the secret it was made for. -/
theorem recorded_step_of_accurate (hnone : c.recorded t = none) (h : (c.step e).1.Accurate t) :
    (c.step e).1.recorded t = none := by
  obtain ⟨hrecorded, -⟩ | ⟨delta, hcount, hrecorded⟩ := step_cases c e t
  · rw [hrecorded, hnone]
  · rw [hnone, countAfter] at hrecorded
    split_ifs at hrecorded with hone
    · have := h 0 hrecorded
      omega
    · exact hrecorded

/-- The count stays accurate exactly if the tenant has its quota row from the start, or never. -/
theorem secret_count_accurate_iff {events : List RowChange} (hc : c.Accurate t) :
    Along step (fun c e => (c.step e).1.Accurate t) c events ↔
      (c.recorded t).isSome ∨ Along step (fun c e => (c.step e).1.recorded t = none) c events := by
  induction events generalizing c with
  | nil => exact iff_of_true trivial (.inr trivial)
  | cons e events ih =>
    cases hn : c.recorded t with
    | some n =>
      have hnext := accurate_step (e := e) hn hc
      have hc' : (c.step e).1.Accurate t := fun n h => (Option.some.inj (hnext.symm.trans h)).symm
      exact iff_of_true ⟨hc', (ih hc').mpr (.inl (by rw [hnext]; rfl))⟩ (.inl rfl)
    | none =>
      have hiff : (c.step e).1.Accurate t ↔ (c.step e).1.recorded t = none :=
        ⟨recorded_step_of_accurate hn, fun h n hn => by rw [h] at hn; cases hn⟩
      rw [Along, Along, hiff, Option.isSome_none, or_iff_right (by simp)]
      refine and_congr_right fun hnone => ?_
      rw [ih (hiff.mpr hnone), hnone, Option.isSome_none, or_iff_right (by simp)]

def oneTenant (quotas : QuotaTable) : CountedSecrets := ⟨[.nil], .empty, quotas⟩

def firstSecret : SecretRow :=
  ({ tenantId := .nil, path := "p", engine := .kvV2, ciphertext := "c", dekId := "k" } :
    UpsertParams).newSecret 0 .nil

theorem secret_count_accurate_first :
    Along step (fun c e => (c.step e).1.Accurate .nil)
      (oneTenant ⟨[{ tenantId := .nil }], List.nodup_singleton _⟩) [.insert firstSecret] :=
  (secret_count_accurate_iff fun n h => by cases h; rfl).mpr (.inl rfl)

theorem secret_count_short :
    let c := ((oneTenant .empty).step (.insert firstSecret)).1
    (oneTenant .empty).Accurate .nil ∧ c.recorded .nil = some 0 ∧ c.count .nil = 1 :=
  ⟨nofun, rfl, rfl⟩

end CountedSecrets

end WslVault.Storage
