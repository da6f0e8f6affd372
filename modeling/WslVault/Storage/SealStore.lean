import WslVault.Core.Seal
import WslVault.Storage.SecretLifecycle

/-!
# The stored seal

The table `system.seal_config`, which holds one row at most, and the two calls of
`crates/wslvault-storage/src/seal_store.rs` on it. A call that fails may have
failed before it reached the table or after: an answer can be lost when the row is
already in.
-/

namespace WslVault.Storage

open Core

structure SealRow where
  (shares threshold : Int)
  (sealedRootKey unsealKeyCheck : String)
  shares_pos : 1 ≤ shares
  threshold_pos : 1 ≤ threshold
  threshold_within_shares : threshold ≤ shares
  deriving DecidableEq

inductive Delivery where
  | answered
  /-- The call fails, and nothing was done. -/
  | refused (reason : String)
  /-- The call fails, after the statement was carried out. -/
  | lost (reason : String)
  deriving DecidableEq

namespace SealStore

def asU8 (n : Int) : UInt8 := UInt8.ofNat (n % 256).toNat

def materialOf (row : SealRow) : SealMaterial where
  shares := asU8 row.shares
  threshold := asU8 row.threshold
  sealedRootKey := row.sealedRootKey
  unsealKeyCheck := row.unsealKeyCheck

def load (config : Option SealRow) (fault : Option String) :
    Except VaultError (Option SealMaterial) :=
  match fault with
  | some reason => .error (.database ("could not read the seal configuration: " ++ reason))
  | none => .ok (config.map materialOf)

def rowOf (material : SealMaterial) : Except SqlError SealRow :=
  if hshares : (1 : Int) ≤ material.shares.toNat then
    if hthreshold : (1 : Int) ≤ material.threshold.toNat then
      if hwithin : (material.threshold.toNat : Int) ≤ material.shares.toNat then
        .ok
          { shares := material.shares.toNat
            threshold := material.threshold.toNat
            sealedRootKey := material.sealedRootKey
            unsealKeyCheck := material.unsealKeyCheck
            shares_pos := hshares
            threshold_pos := hthreshold
            threshold_within_shares := hwithin }
      else .error (.checkViolation "seal_config" "threshold_within_shares")
    else .error (.checkViolation "seal_config" "seal_config_threshold_check")
  else .error (.checkViolation "seal_config" "seal_config_shares_check")

variable (config : Option SealRow)

/-- `INSERT … ON CONFLICT (id) DO NOTHING`, with the number of rows that went in. -/
def insertInitial (material : SealMaterial) : Except SqlError (Option SealRow × Nat) := do
  let row ← rowOf material
  match config with
  | some stored => return (some stored, 0)
  | none => return (some row, 1)

def persistFailed (reason : String) : VaultError :=
  .database ("could not persist the seal configuration: " ++ reason)

/-- `save_initial`: the table it leaves, and its answer. -/
def saveInitial (material : SealMaterial) (delivery : Delivery) :
    Option SealRow × Except VaultError Unit :=
  match delivery with
  | .refused reason => (config, .error (persistFailed reason))
  | .answered | .lost _ =>
    match insertInitial config material with
    | .error e => (config, .error (persistFailed e.message))
    | .ok (config', inserted) =>
      match delivery with
      | .lost reason => (config', .error (persistFailed reason))
      | _ =>
        if inserted = 0 then
          (config', .error (.validationError "seal"
            "vault is already initialized; refusing to replace the root key"))
        else (config', .ok ())

theorem asU8_toNat (n : UInt8) : asU8 n.toNat = n := by
  have hlt := n.toNat_lt
  apply UInt8.toNat_inj.mp
  rw [asU8, UInt8.toNat_ofNat']
  omega

variable {material : SealMaterial} {delivery : Delivery}

theorem materialOf_rowOf {row : SealRow}
    (h : rowOf material = .ok row) : materialOf row = material := by
  unfold rowOf at h
  split at h
  · split at h
    · split at h
      · cases h
        simp only [materialOf, asU8_toNat]
      · cases h
    · cases h
  · cases h

theorem exists_rowOf (hpos : material.threshold ≠ 0)
    (hle : material.threshold ≤ material.shares) : ∃ row, rowOf material = .ok row := by
  have hthreshold : 0 < material.threshold.toNat :=
    Nat.pos_of_ne_zero fun hzero => hpos (UInt8.toNat_inj.mp hzero)
  have hwithin := UInt8.le_iff_toNat_le.mp hle
  have hpos' : (1 : Int) ≤ material.threshold.toNat := by omega
  have hle' : (material.threshold.toNat : Int) ≤ material.shares.toNat := by omega
  simp only [rowOf, dif_pos (Int.le_trans hpos' hle'), dif_pos hpos', dif_pos hle']
  exact ⟨_, rfl⟩

theorem saveInitial_of_stored (row : SealRow) (material : SealMaterial) (delivery : Delivery) :
    (saveInitial (some row) material delivery).1 = some row ∧
      ∃ e, (saveInitial (some row) material delivery).2 = .error e := by
  unfold saveInitial insertInitial
  cases delivery with
  | refused reason => exact ⟨rfl, _, rfl⟩
  | answered =>
    cases rowOf material with
    | error e => exact ⟨rfl, _, rfl⟩
    | ok row' => exact ⟨rfl, _, rfl⟩
  | lost reason =>
    cases rowOf material with
    | error e => exact ⟨rfl, _, rfl⟩
    | ok row' => exact ⟨rfl, _, rfl⟩

theorem saveInitial_eq_ok {config : Option SealRow}
    (h : (saveInitial config material delivery).2 = .ok ()) :
    ∃ row, rowOf material = .ok row ∧ (saveInitial config material delivery).1 = some row := by
  cases config with
  | some row =>
    obtain ⟨-, e, he⟩ := saveInitial_of_stored row material delivery
    rw [he] at h
    cases h
  | none =>
    unfold saveInitial insertInitial at h ⊢
    cases delivery with
    | refused reason => cases h
    | lost reason =>
      cases hrow : rowOf material with
      | error e =>
        rw [hrow] at h
        cases h
      | ok row =>
        rw [hrow] at h
        cases h
    | answered =>
      cases hrow : rowOf material with
      | error e =>
        rw [hrow] at h
        cases h
      | ok row => exact ⟨row, rfl, rfl⟩

theorem saveInitial_of_empty {row : SealRow}
    (hrow : rowOf material = .ok row) (hdelivery : ∀ reason, delivery ≠ .refused reason) :
    (saveInitial none material delivery).1 = some row := by
  unfold saveInitial insertInitial
  cases delivery with
  | refused reason => exact absurd rfl (hdelivery reason)
  | answered =>
    rw [hrow]
    rfl
  | lost reason =>
    rw [hrow]
    rfl

end SealStore

end WslVault.Storage
