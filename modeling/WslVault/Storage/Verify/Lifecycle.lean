import WslVault.Storage.SecretLifecycle

/-!
# The lifecycle of the secrets

The stored functions number versions from a secret's write pointer, and an initiated
rotation puts a row above it. All numbers of a secret are at most its pointer, but for one
pending number above it while a rotation waits for its confirmation (`Lifecycle.Inv`).
-/

namespace WslVault.Storage

open Core Base

structure Pointer where
  id : Uuid
  pathKey : Uuid × String
  current : Int
  deriving DecidableEq

/-- A taken version number, and whether its row is pending. -/
structure Number where
  secretId : Uuid
  version : Int
  pending : Bool
  deriving DecidableEq

def SecretRow.pointer (s : SecretRow) : Pointer := ⟨s.id, s.pathKey, s.currentVersion⟩

def VersionRow.number (v : VersionRow) : Number := ⟨v.secretId, v.version, v.status == .pending⟩

structure Lifecycle where
  pointers : List Pointer
  numbers : List Number
  rotations : List RotationRow

def Db.lifecycle (db : Db) : Lifecycle where
  pointers := db.secrets.rows.map (·.pointer)
  numbers := db.versions.rows.map (·.number)
  rotations := db.rotations.rows

structure Lifecycle.Inv (c : Lifecycle) : Prop where
  ids : ∀ x ∈ c.pointers, ∀ y ∈ c.pointers, x.id = y.id → x = y
  current : ∀ x ∈ c.pointers, 1 ≤ x.current ∧ x.current ≤ 2147483647
  owned : ∀ n ∈ c.numbers, ∃ x ∈ c.pointers, x.id = n.secretId
  rotationOwned : ∀ r ∈ c.rotations, ∃ x ∈ c.pointers, x.id = r.secretId ∧
    x.pathKey = (r.tenantId, r.path)
  /-- A settled number is at most the pointer, a pending one is the next. -/
  numbered : ∀ x ∈ c.pointers, ∀ n ∈ c.numbers, n.secretId = x.id → 1 ≤ n.version ∧
    (n.pending = false → n.version ≤ x.current) ∧ (n.pending = true → n.version = x.current + 1)
  waiting : ∀ x ∈ c.pointers, ∀ r ∈ c.rotations, r.secretId = x.id → r.waiting = true →
    r.oldVersion = x.current ∧ r.newVersion = x.current + 1 ∧ x.current + 1 ≤ 2147483647 ∧
    ⟨x.id, x.current + 1, true⟩ ∈ c.numbers
  /-- A pending number belongs to a rotation that waits. -/
  awaited : ∀ n ∈ c.numbers, n.pending = true →
    ∃ r ∈ c.rotations, r.secretId = n.secretId ∧ r.waiting = true
  onlyWaiting : ∀ r ∈ c.rotations, ∀ r' ∈ c.rotations, r.secretId = r'.secretId →
    r.waiting = true → r'.waiting = true → r.id = r'.id
  confirmed : ∀ x ∈ c.pointers, ∀ r ∈ c.rotations, r.secretId = x.id → r.status = .confirmed →
    r.oldVersion < x.current

/-- The pointer of one secret, old or new, is put to a number; the others stay. -/
def Lifecycle.Moves (c c' : Lifecycle) (x : Pointer) (current : Int) : Prop :=
  ∀ y, y ∈ c'.pointers ↔ y = { x with current := current } ∨ (y ∈ c.pointers ∧ y.id ≠ x.id)

theorem Lifecycle.Moves.kept {c c' : Lifecycle} {x : Pointer} {current : Int}
    (h : c.Moves c' x current) (hx : ∀ y ∈ c.pointers, y.id = x.id → y = x) :
    ∀ y ∈ c.pointers, ∃ y' ∈ c'.pointers, y'.id = y.id ∧ y'.pathKey = y.pathKey := by
  intro y hy
  by_cases hid : y.id = x.id
  · obtain rfl := hx y hy hid
    exact ⟨_, (h _).mpr (.inl rfl), rfl, rfl⟩
  · exact ⟨y, (h _).mpr (.inr ⟨hy, hid⟩), rfl, rfl⟩

theorem Lifecycle.inv_empty : Lifecycle.Inv ⟨[], [], []⟩ := by
  constructor <;> simp

namespace Lifecycle.Inv

variable {c c' : Lifecycle} {x : Pointer} {r : RotationRow}

section

variable (h : c.Inv)

include h

theorem not_waiting (hx : x ∈ c.pointers)
    (hfree : ∀ n ∈ c.numbers, n.secretId = x.id → n.version ≠ x.current + 1)
    (hr : r ∈ c.rotations) (hid : r.secretId = x.id) : r.waiting = false := by
  by_contra hw
  obtain ⟨-, -, -, hmem⟩ := h.waiting x hx r hr hid (by simpa using hw)
  exact hfree _ hmem rfl rfl

theorem waiting_of_taken (hx : x ∈ c.pointers) {n : Number} (hn : n ∈ c.numbers)
    (hid : n.secretId = x.id) (htaken : n.version = x.current + 1) :
    ∃ r ∈ c.rotations, r.secretId = x.id ∧ r.waiting = true := by
  obtain ⟨-, hsettled, -⟩ := h.numbered x hx n hn hid
  have hpending : n.pending = true := by
    by_contra hno
    have := hsettled (by simpa using hno)
    omega
  obtain ⟨r, hr, hrid, hw⟩ := h.awaited n hn hpending
  exact ⟨r, hr, hrid.trans hid, hw⟩

theorem number_range {n : Number} (hn : n ∈ c.numbers) :
    1 ≤ n.version ∧ n.version ≤ 2147483647 := by
  obtain ⟨x, hx, hid⟩ := h.owned n hn
  obtain ⟨hpos, hsettled, hpending⟩ := h.numbered x hx n hn hid.symm
  refine ⟨hpos, ?_⟩
  cases hp : n.pending with
  | false =>
    have := hsettled hp
    have := (h.current x hx).2
    omega
  | true =>
    obtain ⟨r, hr, hrid, hw⟩ := h.awaited n hn hp
    obtain ⟨-, -, hmax, -⟩ := h.waiting x hx r hr (hrid.trans hid.symm) hw
    have := hpending hp
    omega

theorem ids_of_moves {current : Int} (hp : c.Moves c' x current) :
    ∀ y ∈ c'.pointers, ∀ z ∈ c'.pointers, y.id = z.id → y = z := by
  intro y hy z hz hid
  rcases (hp y).mp hy with rfl | ⟨hy, hyne⟩ <;> rcases (hp z).mp hz with rfl | ⟨hz, hzne⟩
  · rfl
  · exact absurd hid.symm hzne
  · exact absurd hid hyne
  · exact h.ids y hy z hz hid

/-- Writing the next number of a secret, old or new, when it is free. -/
theorem write (hx : x ∈ c.pointers ∨ (x.current = 0 ∧ ∀ y ∈ c.pointers, y.id ≠ x.id))
    (hfree : ∀ n ∈ c.numbers, n.secretId = x.id → n.version ≠ x.current + 1)
    (hmax : x.current + 1 ≤ 2147483647)
    (hp : c.Moves c' x (x.current + 1))
    (hn : ∀ n ∈ c'.numbers, n ∈ c.numbers ∨ n = ⟨x.id, x.current + 1, false⟩)
    (hother : ∀ n ∈ c.numbers, n.secretId ≠ x.id → n ∈ c'.numbers)
    (hr : c'.rotations = c.rotations) : c'.Inv := by
  have hcurrent : 0 ≤ x.current := by
    rcases hx with hx | ⟨hx, -⟩
    · have := (h.current x hx).1
      omega
    · omega
  -- the numbers of this secret were at most the old pointer
  have hold : ∀ n ∈ c.numbers, n.secretId = x.id →
      1 ≤ n.version ∧ n.version ≤ x.current ∧ n.pending = false := by
    intro n hmem hid
    rcases hx with hx | ⟨-, hx⟩
    · obtain ⟨hpos, hsettled, hpending⟩ := h.numbered x hx n hmem hid
      have hno : n.pending = false := by
        by_contra hno
        exact hfree n hmem hid (hpending (by simpa using hno))
      exact ⟨hpos, hsettled hno, hno⟩
    · obtain ⟨y, hy, hyid⟩ := h.owned n hmem
      exact absurd (hyid.trans hid) (hx y hy)
  have hnone : ∀ r ∈ c.rotations, r.secretId = x.id →
      r.waiting = false ∧ (r.status = .confirmed → r.oldVersion < x.current) := by
    intro r hmem hid
    rcases hx with hx | ⟨-, hx⟩
    · exact ⟨h.not_waiting hx hfree hmem hid, h.confirmed x hx r hmem hid⟩
    · obtain ⟨y, hy, hyid, -⟩ := h.rotationOwned r hmem
      exact absurd (hyid.trans hid) (hx y hy)
  have hkept := hp.kept fun y hy hid => hx.elim (fun hx => h.ids y hy x hx hid)
    fun hx => absurd hid (hx.2 y hy)
  constructor
  case ids => exact h.ids_of_moves hp
  case current =>
    intro y hy
    rcases (hp y).mp hy with rfl | ⟨hy, -⟩
    · exact ⟨by simp only; omega, hmax⟩
    · exact h.current y hy
  case owned =>
    intro n hmem
    rcases hn n hmem with hmem | rfl
    · obtain ⟨y, hy, hid⟩ := h.owned n hmem
      obtain ⟨y', hy', hid', -⟩ := hkept y hy
      exact ⟨y', hy', hid'.trans hid⟩
    · exact ⟨_, (hp _).mpr (.inl rfl), rfl⟩
  case rotationOwned =>
    intro r hmem
    rw [hr] at hmem
    obtain ⟨y, hy, hid, hkey⟩ := h.rotationOwned r hmem
    obtain ⟨y', hy', hid', hkey'⟩ := hkept y hy
    exact ⟨y', hy', hid'.trans hid, hkey'.trans hkey⟩
  case numbered =>
    intro y hy n hmem hid
    rcases (hp y).mp hy with rfl | ⟨hy, hyne⟩ <;> rcases hn n hmem with hmem | rfl
    · obtain ⟨hpos, hle, hno⟩ := hold n hmem hid
      refine ⟨hpos, fun _ => by simp only; omega, fun hyes => ?_⟩
      rw [hno] at hyes
      cases hyes
    · exact ⟨by simp only; omega, fun _ => Int.le_refl _, fun hyes => by cases hyes⟩
    · exact h.numbered y hy n hmem hid
    · exact absurd hid.symm hyne
  case waiting =>
    intro y hy r hmem hid hw
    rw [hr] at hmem
    rcases (hp y).mp hy with rfl | ⟨hy, hyne⟩
    · rw [(hnone r hmem hid).1] at hw
      cases hw
    · obtain ⟨hold', hnew, hmax', hnum⟩ := h.waiting y hy r hmem hid hw
      exact ⟨hold', hnew, hmax', hother _ hnum hyne⟩
  case awaited =>
    intro n hmem hpend
    rw [hr]
    rcases hn n hmem with hmem | rfl
    · exact h.awaited n hmem hpend
    · cases hpend
  case onlyWaiting =>
    rw [hr]
    exact h.onlyWaiting
  case confirmed =>
    intro y hy r hmem hid hconf
    rw [hr] at hmem
    rcases (hp y).mp hy with rfl | ⟨hy, -⟩
    · have := (hnone r hmem hid).2 hconf
      simp only
      omega
    · exact h.confirmed y hy r hmem hid hconf

/-- Putting a pending row on the free next number, with a rotation for it. -/
theorem initiate (hx : x ∈ c.pointers)
    (hfree : ∀ n ∈ c.numbers, n.secretId = x.id → n.version ≠ x.current + 1)
    (hmax : x.current + 1 ≤ 2147483647) (hrid : r.secretId = x.id)
    (hkey : x.pathKey = (r.tenantId, r.path)) (hold : r.oldVersion = x.current)
    (hnew : r.newVersion = x.current + 1) (hwaiting : r.waiting = true)
    (hp : c'.pointers = c.pointers) (hn : c'.numbers = c.numbers ++ [⟨x.id, x.current + 1, true⟩])
    (hr : c'.rotations = c.rotations ++ [r]) : c'.Inv := by
  have hmemn : ∀ n, n ∈ c'.numbers ↔ n ∈ c.numbers ∨ n = ⟨x.id, x.current + 1, true⟩ := by
    intro n
    rw [hn, List.mem_append, List.mem_singleton]
  have hmemr : ∀ r', r' ∈ c'.rotations ↔ r' ∈ c.rotations ∨ r' = r := by
    intro r'
    rw [hr, List.mem_append, List.mem_singleton]
  have hstatus : r.status = .pendingActivation := by simpa [RotationRow.waiting] using hwaiting
  have hnone : ∀ r' ∈ c.rotations, r'.secretId = x.id → r'.waiting = false := by
    intro r' hr' hid
    exact h.not_waiting hx hfree hr' hid
  constructor
  case ids => rw [hp]; exact h.ids
  case current => rw [hp]; exact h.current
  case owned =>
    intro n hmem
    rw [hp]
    rcases (hmemn n).mp hmem with hmem | rfl
    · exact h.owned n hmem
    · exact ⟨x, hx, rfl⟩
  case rotationOwned =>
    intro r' hmem
    rw [hp]
    rcases (hmemr r').mp hmem with hmem | rfl
    · exact h.rotationOwned r' hmem
    · exact ⟨x, hx, hrid.symm, hkey⟩
  case numbered =>
    intro y hy n hmem hid
    rw [hp] at hy
    rcases (hmemn n).mp hmem with hmem | rfl
    · exact h.numbered y hy n hmem hid
    · have := h.ids x hx y hy hid
      subst this
      have := (h.current x hx).1
      exact ⟨by simp only; omega, fun hno => (by cases hno), fun _ => rfl⟩
  case waiting =>
    intro y hy r' hmem hid hw
    rw [hp] at hy
    rcases (hmemr r').mp hmem with hmem | rfl
    · obtain ⟨hold', hnew', hmax', hnum⟩ := h.waiting y hy r' hmem hid hw
      exact ⟨hold', hnew', hmax', (hmemn _).mpr (.inl hnum)⟩
    · have := h.ids x hx y hy (hrid.symm.trans hid)
      subst this
      exact ⟨hold, hnew, hmax, (hmemn _).mpr (.inr rfl)⟩
  case awaited =>
    intro n hmem hpend
    rcases (hmemn n).mp hmem with hmem | rfl
    · obtain ⟨r', hr', hid, hw⟩ := h.awaited n hmem hpend
      exact ⟨r', (hmemr r').mpr (.inl hr'), hid, hw⟩
    · exact ⟨r, (hmemr r).mpr (.inr rfl), hrid, hwaiting⟩
  case onlyWaiting =>
    intro r₁ h₁ r₂ h₂ hid hw₁ hw₂
    rcases (hmemr r₁).mp h₁ with h₁ | rfl <;> rcases (hmemr r₂).mp h₂ with h₂ | rfl
    · exact h.onlyWaiting r₁ h₁ r₂ h₂ hid hw₁ hw₂
    · rw [hnone r₁ h₁ (hid.trans hrid)] at hw₁
      cases hw₁
    · rw [hnone r₂ h₂ (hid.symm.trans hrid)] at hw₂
      cases hw₂
    · rfl
  case confirmed =>
    intro y hy r' hmem hid hconf
    rw [hp] at hy
    rcases (hmemr r').mp hmem with hmem | rfl
    · exact h.confirmed y hy r' hmem hid hconf
    · rw [hstatus] at hconf
      cases hconf

/-- Confirming a waiting rotation: its number is settled, and the pointer
moves to it. -/
theorem confirm (hx : x ∈ c.pointers) (r' : RotationRow) (hr : r ∈ c.rotations)
    (hrid : r.secretId = x.id) (hwaiting : r.waiting = true)
    (hids : ∀ r₁ ∈ c.rotations, r₁.id = r.id → r₁ = r)
    (hsame : r'.secretId = r.secretId ∧ r'.tenantId = r.tenantId ∧ r'.path = r.path ∧
      r'.oldVersion = r.oldVersion ∧ r'.status = .confirmed)
    (hp : c.Moves c' x r.newVersion)
    (hn : ∀ n, n ∈ c'.numbers ↔ n = ⟨x.id, r.newVersion, false⟩ ∨
      (n ∈ c.numbers ∧ ¬ (n.secretId = x.id ∧ n.version = r.newVersion)))
    (hrot : ∀ r₁, r₁ ∈ c'.rotations ↔ r₁ = r' ∨ (r₁ ∈ c.rotations ∧ r₁.id ≠ r.id)) : c'.Inv := by
  obtain ⟨hold, hnew, hmax, hnum⟩ := h.waiting x hx r hr hrid hwaiting
  obtain ⟨hs, ht, hpath, ho, hst⟩ := hsame
  have hcur := h.current x hx
  have hdone : r'.waiting = false := by simp [RotationRow.waiting, hst]
  have hkept := hp.kept fun y hy hid => h.ids y hy x hx hid
  -- every other rotation of the secret is past its confirmation
  have hothers : ∀ r₁ ∈ c.rotations, r₁.id ≠ r.id → r₁.secretId = x.id → r₁.waiting = false := by
    intro r₁ h₁ hne hid
    by_contra hw
    exact hne (h.onlyWaiting r₁ h₁ r hr (hid.trans hrid.symm) (by simpa using hw) hwaiting)
  constructor
  case ids => exact h.ids_of_moves hp
  case current =>
    intro y hy
    rcases (hp y).mp hy with rfl | ⟨hy, -⟩
    · simp only
      omega
    · exact h.current y hy
  case owned =>
    intro n hmem
    rcases (hn n).mp hmem with rfl | ⟨hmem, -⟩
    · exact ⟨_, (hp _).mpr (.inl rfl), rfl⟩
    · obtain ⟨y, hy, hid⟩ := h.owned n hmem
      obtain ⟨y', hy', hid', -⟩ := hkept y hy
      exact ⟨y', hy', hid'.trans hid⟩
  case rotationOwned =>
    intro r₁ hmem
    have hr₁ : ∃ r₂ ∈ c.rotations, r₂.secretId = r₁.secretId ∧
        (r₂.tenantId, r₂.path) = (r₁.tenantId, r₁.path) := by
      rcases (hrot r₁).mp hmem with rfl | ⟨hmem, -⟩
      · exact ⟨r, hr, hs.symm, by rw [ht, hpath]⟩
      · exact ⟨r₁, hmem, rfl, rfl⟩
    obtain ⟨r₂, hr₂, hid₂, hkey₂⟩ := hr₁
    obtain ⟨y, hy, hid, hkey⟩ := h.rotationOwned r₂ hr₂
    obtain ⟨y', hy', hid', hkey'⟩ := hkept y hy
    exact ⟨y', hy', hid'.trans (hid.trans hid₂), hkey'.trans (hkey.trans hkey₂)⟩
  case numbered =>
    intro y hy n hmem hid
    rcases (hp y).mp hy with rfl | ⟨hy, hyne⟩ <;> rcases (hn n).mp hmem with rfl | ⟨hmem, hne⟩
    · exact ⟨by simp only; omega, fun _ => Int.le_refl _, fun hyes => (by cases hyes)⟩
    · obtain ⟨hpos, hsettled, hpending⟩ := h.numbered x hx n hmem hid
      refine ⟨hpos, fun hno => ?_, fun hyes => ?_⟩
      · have := hsettled hno
        simp only
        omega
      · exact absurd ⟨hid, (hpending hyes).trans hnew.symm⟩ hne
    · exact absurd hid.symm hyne
    · exact h.numbered y hy n hmem hid
  case waiting =>
    intro y hy r₁ hmem hid hw
    rcases (hrot r₁).mp hmem with rfl | ⟨hmem, hne⟩
    · rw [hdone] at hw
      cases hw
    · rcases (hp y).mp hy with rfl | ⟨hy, hyne⟩
      · rw [hothers r₁ hmem hne hid] at hw
        cases hw
      · obtain ⟨hold', hnew', hmax', hnum'⟩ := h.waiting y hy r₁ hmem hid hw
        exact ⟨hold', hnew', hmax', (hn _).mpr (.inr ⟨hnum', fun hsame => hyne hsame.1⟩)⟩
  case awaited =>
    intro n hmem hpend
    rcases (hn n).mp hmem with rfl | ⟨hmem, hne⟩
    · cases hpend
    · obtain ⟨r₁, h₁, hid, hw⟩ := h.awaited n hmem hpend
      have hother : n.secretId ≠ x.id := by
        intro hnx
        exact hne ⟨hnx, ((h.numbered x hx n hmem hnx).2.2 hpend).trans hnew.symm⟩
      refine ⟨r₁, (hrot r₁).mpr (.inr ⟨h₁, fun heq => ?_⟩), hid, hw⟩
      rw [hids r₁ h₁ heq] at hid
      exact hother (hid.symm.trans hrid)
  case onlyWaiting =>
    intro r₁ h₁ r₂ h₂ hid hw₁ hw₂
    rcases (hrot r₁).mp h₁ with rfl | ⟨h₁, -⟩
    · rw [hdone] at hw₁
      cases hw₁
    · rcases (hrot r₂).mp h₂ with rfl | ⟨h₂, -⟩
      · rw [hdone] at hw₂
        cases hw₂
      · exact h.onlyWaiting r₁ h₁ r₂ h₂ hid hw₁ hw₂
  case confirmed =>
    intro y hy r₁ hmem hid hconf
    rcases (hp y).mp hy with rfl | ⟨hy, hyne⟩ <;> rcases (hrot r₁).mp hmem with rfl | ⟨hmem, -⟩
    · simp only
      omega
    · have := h.confirmed x hx r₁ hmem hid hconf
      simp only
      omega
    · exact absurd (hid.symm.trans (hs.trans hrid)) hyne
    · exact h.confirmed y hy r₁ hmem hid hconf

theorem complete (hp : c'.pointers = c.pointers) (hn : c'.numbers = c.numbers)
    (hrot : ∀ r' ∈ c'.rotations, r' ∈ c.rotations ∨
      ∃ r ∈ c.rotations, r'.secretId = r.secretId ∧ r'.tenantId = r.tenantId ∧
        r'.path = r.path ∧ r'.status = .completed)
    (hkeep : ∀ r ∈ c.rotations, r.waiting = true → r ∈ c'.rotations) : c'.Inv := by
  have hsame : ∀ r' ∈ c'.rotations, r'.status ≠ .completed → r' ∈ c.rotations := by
    intro r' hr' hne
    rcases hrot r' hr' with hmem | ⟨-, -, -, -, -, hst⟩
    · exact hmem
    · exact absurd hst hne
  have hwaiting : ∀ r' ∈ c'.rotations, r'.waiting = true → r' ∈ c.rotations := by
    intro r' hr' hw
    refine hsame r' hr' fun hst => ?_
    simp [RotationRow.waiting, hst] at hw
  constructor
  case ids => rw [hp]; exact h.ids
  case current => rw [hp]; exact h.current
  case owned => rw [hp, hn]; exact h.owned
  case rotationOwned =>
    intro r' hr'
    rw [hp]
    rcases hrot r' hr' with hmem | ⟨r, hr, hid, ht, hpath, -⟩
    · exact h.rotationOwned r' hmem
    · obtain ⟨y, hy, hyid, hkey⟩ := h.rotationOwned r hr
      exact ⟨y, hy, hyid.trans hid.symm, by rw [hkey, ht, hpath]⟩
  case numbered => rw [hp, hn]; exact h.numbered
  case waiting =>
    intro y hy r' hr' hid hw
    rw [hp] at hy
    rw [hn]
    exact h.waiting y hy r' (hwaiting r' hr' hw) hid hw
  case awaited =>
    intro n hmem hpend
    rw [hn] at hmem
    obtain ⟨r, hr, hid, hw⟩ := h.awaited n hmem hpend
    exact ⟨r, hkeep r hr hw, hid, hw⟩
  case onlyWaiting =>
    intro r₁ h₁ r₂ h₂ hid hw₁ hw₂
    exact h.onlyWaiting r₁ (hwaiting r₁ h₁ hw₁) r₂ (hwaiting r₂ h₂ hw₂) hid hw₁ hw₂
  case confirmed =>
    intro y hy r' hr' hid hconf
    rw [hp] at hy
    exact h.confirmed y hy r' (hsame r' hr' (by simp [hconf])) hid hconf

end

end Lifecycle.Inv

end WslVault.Storage
