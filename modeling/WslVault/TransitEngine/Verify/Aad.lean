import WslVault.SecretEngine.Clients
import WslVault.SecretEngine.Verify.Paths
import WslVault.TransitEngine.Keys

/-!
# Associated data

A ciphertext opens only under the associated data it was made with, so that data should tell
apart what the ciphertexts belong to (`aad_separates_contexts`).
-/

namespace WslVault.TransitEngine

open Base Core SecretEngine

theorem colon_notMem_toString (v : UInt32) : ':' ∉ (toString v.toNat).toList :=
  fun h => absurd (Text.isDigit_of_mem_toString h) (by decide)

/-- A path that was let through, or the form it was given. -/
def AcceptedPath (path : String) : Prop :=
  ∃ raw normalized, normalizeAndValidate raw = .ok normalized ∧ (path = raw ∨ path = normalized)

theorem AcceptedPath.colon_notMem {path : String} (h : AcceptedPath path) : ':' ∉ path.toList := by
  obtain ⟨raw, normalized, hok, hpath⟩ := h
  simp only [normalizeAndValidate, normalizePath, bind_eq_ok, pure_eq_ok, validatePath_eq_ok] at hok
  obtain ⟨_, ⟨_, -, _, -, rfl⟩, _, hvalid, rfl⟩ := hok
  have hcolon : ':' ∉ (Text.trimMatches '/' raw).toList :=
    fun hmem => absurd (hvalid ':' hmem) (by decide)
  rcases hpath with rfl | rfl
  · exact fun hmem => hcolon (Text.mem_trimMatches (by decide) hmem)
  · exact hcolon

/-- The associated data of a secret tells tenant and path apart, and that of wrapped key
material tenant, name and version. -/
theorem aad_separates_contexts :
    (∀ tenant tenant' path path' : String, AcceptedPath path → AcceptedPath path' →
      buildAad tenant path = buildAad tenant' path' → tenant = tenant' ∧ path = path') ∧
    ∀ (tenant tenant' name name' : String) (v v' : UInt32),
      ':' ∉ tenant.toList → ':' ∉ tenant'.toList →
      wrapAad tenant name v = wrapAad tenant' name' v' →
      tenant = tenant' ∧ name = name' ∧ v = v' := by
  constructor
  · intro tenant tenant' path path' hpath hpath' h
    exact (Text.append_sep_inj_of_notMem hpath.colon_notMem hpath'.colon_notMem).mp
      (asBytes_injective h)
  · intro tenant tenant' name name' v v' ht ht' h
    have hform : ∀ (t n : String) (w : UInt32), "transit:" ++ t ++ ":" ++ n ++ ":v" ++
        toString w.toNat = "transit:" ++ (t ++ String.singleton ':' ++
          (n ++ String.singleton ':' ++ ("v" ++ toString w.toNat))) := by
      intro t n w
      have hcolon : ":v" = String.singleton ':' ++ "v" := rfl
      simp only [hcolon, String.append_assoc]
      rfl
    have htexts := asBytes_injective h
    rw [hform, hform, String.append_right_inj, Text.append_sep_inj
      (by rw [List.count_eq_zero.mpr ht, List.count_eq_zero.mpr ht'])] at htexts
    obtain ⟨rfl, htexts⟩ := htexts
    have hcolon : ∀ w : UInt32, ':' ∉ ("v" ++ toString w.toNat).toList := by
      intro w
      rw [String.toList_append, List.mem_append]
      exact not_or.mpr ⟨by decide, colon_notMem_toString w⟩
    obtain ⟨rfl, hlabel⟩ :=
      (Text.append_sep_inj_of_notMem (hcolon v) (hcolon v')).mp htexts
    rw [String.append_right_inj] at hlabel
    exact ⟨rfl, rfl, UInt32.toNat_inj.mp (Text.toString_nat_injective hlabel)⟩

end WslVault.TransitEngine
