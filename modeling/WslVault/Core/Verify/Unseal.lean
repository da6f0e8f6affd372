import Mathlib.Data.Finset.Card
import WslVault.Base.Run
import WslVault.Core.Seal

/-!
# Unsealing

Shares are submitted one by one, in any order with resets, seals and reloads, and with texts
that are no shares of this vault. No two keys are assumed to have one check value; nothing is
assumed of the sharing itself.
-/

namespace WslVault.Core

open Base

/-! ## A sharing library to evaluate runs with

Its shares are numbered and hold the secret itself; it refuses what the real one
refuses.
-/

def Sharks.indexed : Sharks where
  Share := UInt8 × Bytes
  tryFrom
    | point :: b :: bytes => .ok (point, b :: bytes)
    | _ => .error "A Share must be at least 2 bytes long"
  toVec share := share.1 :: share.2
  dealer _ secret _ i := (.ofNat (i + 1), secret)
  recover threshold shares :=
    match shares with
    | [] => .error "Not enough shares to recover original secret"
    | first :: _ =>
      if ∃ share ∈ shares, share.2.length ≠ first.2.length then
        .error "All shares must have the same length"
      else if (shares.map Prod.fst).dedup.length < threshold.toNat then
        .error "Not enough shares to recover original secret"
      else .ok first.2

def Primitives.indexed : Primitives := { Primitives.transparent with sharks := .indexed }

namespace Seal

/-! ## What a submission does -/

def readShare (p : Primitives) (shareB64 : String) : Option Bytes :=
  match Base64.decode (Text.trim shareB64) with
  | none => none
  | some raw =>
    match p.sharks.tryFrom raw with
    | .error _ => none
    | .ok _ => some raw

def sharesOf (p : Primitives) (pending : List Bytes) : List p.sharks.Share :=
  pending.filterMap fun raw => (p.sharks.tryFrom raw).toOption

def opened (p : Primitives) (m : SealMaterial) (unsealKey : Key) : Option Key :=
  (decryptWithDek p.aes unsealKey m.sealedRootKey sealAad).toOption.bind (Block.ofSlice 32)

/-- What recovered bytes come to: the root key, if they open the vault, and the
shares that stay pending. -/
def opening (p : Primitives) (m : SealMaterial) (pending : List Bytes) (recovered : Bytes) :
    Option Key × List Bytes :=
  match Block.ofSlice 32 recovered with
  | none => (none, [])
  | some unsealKey =>
    match checkValue p unsealKey with
    | .error _ => (none, pending)
    | .ok check =>
      if check ≠ m.unsealKeyCheck then (none, [])
      else
        match opened p m unsealKey with
        | none => (none, pending)
        | some rootKey => (some rootKey, [])

def attempt (p : Primitives) (m : SealMaterial) (pending : List Bytes) : Option Key × List Bytes :=
  if UInt8.ofNat pending.length < m.threshold then (none, pending)
  else
    match p.sharks.recover m.threshold (sharesOf p pending) with
    | .error _ => (none, pending)
    | .ok recovered => opening p m pending recovered

/-- The state a submission to an initialised vault leaves. -/
def afterShare (p : Primitives) (m : SealMaterial) (inner : SealInner) (shareB64 : String) :
    SealInner :=
  if inner.rootKey.isSome then inner
  else
    match readShare p shareB64 with
    | none => inner
    | some raw =>
      if inner.pending.contains raw then inner
      else { inner with
        rootKey := (attempt p m (inner.pending ++ [raw])).1
        pending := (attempt p m (inner.pending ++ [raw])).2 }

theorem openWith_outcome (p : Primitives) (m : SealMaterial) (recovered : Bytes)
    (inner : SealInner) : Outcome (openWith p m recovered) inner
      (fun rootKey s => s = inner ∧ opening p m inner.pending recovered = (some rootKey, []))
      (fun _ s => ∃ kept, opening p m inner.pending recovered = (none, kept) ∧
        s = { inner with pending := kept }) := by
  unfold openWith opening
  cases Block.ofSlice 32 recovered with
  | none => simp
  | some unsealKey =>
    simp only [outcome_bind, outcome_ofExcept]
    refine ⟨fun check hcheck => ?_, fun e he => ?_⟩
    · rw [hcheck]
      by_cases hne : check ≠ m.unsealKeyCheck
      · simp [hne]
      · simp only [hne, if_false]
        unfold opened
        cases hdec : decryptWithDek p.aes unsealKey m.sealedRootKey sealAad with
        | error e => simp [Except.toOption]
        | ok plaintext =>
          cases hblock : Block.ofSlice 32 plaintext with
          | none => simp [Except.toOption, hblock]
          | some rootKey => simp [Except.toOption, hblock]
    · rw [he]
      exact ⟨inner.pending, rfl, rfl⟩

variable {inner : SealInner} {m : SealMaterial}

theorem unsealShare_outcome (p : Primitives) (shareB64 : String) (hm : inner.material = some m) :
    Leaves (unsealShare p shareB64) inner fun s => s = afterShare p m inner shareB64 := by
  obtain ⟨material, rootKey, pending⟩ := inner
  cases hm
  simp only [unsealShare, outcome_bind, outcome_get]
  cases rootKey with
  | some k => simp [afterShare]
  | none =>
    unfold afterShare readShare
    cases hd : Base64.decode (Text.trim shareB64) with
    | none => simp
    | some raw =>
      cases ht : p.sharks.tryFrom raw with
      | error e => simp [ht]
      | ok share =>
        by_cases hmem : raw ∈ pending
        · simp [ht, hmem]
        · simp only [ht, List.contains_iff_mem, hmem, Option.isSome_none, Bool.false_eq_true,
            if_false]
          rw [outcome_bind, outcome_set]
          unfold attempt sharesOf
          by_cases hlt : UInt8.ofNat (pending ++ [raw]).length < m.threshold
          · simp only [hlt, if_true, outcome_pure]
          · simp only [hlt, if_false]
            cases p.sharks.recover m.threshold
                ((pending ++ [raw]).filterMap fun r => (p.sharks.tryFrom r).toOption) with
            | error e => simp only [outcome_throw]
            | ok recovered =>
              rw [outcome_bind]
              refine (openWith_outcome p m recovered _).mono ?_ ?_
              · rintro rootKey s ⟨rfl, hopening⟩
                simp only [outcome_bind, outcome_set, outcome_pure, hopening]
              · rintro e s ⟨kept, hopening, rfl⟩
                simp only [hopening]

theorem step_unsealShare (p : Primitives) (m : SealMaterial)
    (hm : inner.material = some m) (shareB64 : String) :
    (step p m inner (.unsealShare shareB64)).1 = afterShare p m inner shareB64 :=
  (unsealShare_outcome p shareB64 hm).left

structure Keeps (p : Primitives) (m : SealMaterial) (unsealKey rootKey : Key) : Prop where
  check : checkValue p unsealKey = .ok m.unsealKeyCheck
  opens : opened p m unsealKey = some rootKey

def dealt (p : Primitives) (threshold : UInt8) (unsealKey : Key) (coefficients : Bytes)
    (i : Nat) : Bytes :=
  p.sharks.toVec (p.sharks.dealer threshold unsealKey.val coefficients i)

variable {p : Primitives} {shares threshold : UInt8} {drawn : InitDraw} {inner' : SealInner}
  {calls : List Call} {call : Call}

theorem generate_eq_ok {result : InitResult}
    (h : generate p shares threshold drawn = .ok (result, m)) :
    ∃ rootKey unsealKey, drawn.rootKey = some rootKey ∧ Keeps p m unsealKey rootKey ∧
      m.threshold = threshold ∧ result.threshold = threshold ∧
      result.shares = (List.range shares.toNat).map fun i =>
        Base64.encode (dealt p threshold unsealKey drawn.coefficients i) := by
  simp only [generate, bind_eq_ok, pure_eq_ok] at h
  obtain ⟨rootKey, hroot, unsealKey, -, sealedRootKey, hsealed, check, hcheck, hout⟩ := h
  cases hout
  have hdrawn : drawn.rootKey = some rootKey := by
    cases ho : drawn.rootKey with
    | none =>
      rw [ho] at hroot
      cases hroot
    | some k =>
      rw [ho] at hroot
      cases hroot
      rfl
  refine ⟨rootKey, unsealKey, hdrawn, ⟨hcheck, ?_⟩, rfl, rfl, rfl⟩
  rw [opened, decryptWithDek_encryptWithDek hsealed]
  exact Block.ofSlice_val rootKey

theorem checkInit_eq_ok (h : checkInit inner shares threshold = .ok ()) :
    threshold ≠ 0 ∧ threshold ≤ shares ∧ inner.material = none := by
  unfold checkInit at h
  split at h
  · cases h
  · next hzero =>
    split at h
    · cases h
    · next hle =>
      cases hmaterial : inner.material with
      | none => exact ⟨fun h => hzero (.inl h), UInt8.not_lt.mp hle, rfl⟩
      | some m =>
        rw [hmaterial] at h
        cases h

/-- What an initialisation leaves: the material of its two keys, and a seal that
has just loaded it. -/
theorem init_eq_ok {result : InitResult}
    (h : init p inner shares threshold drawn = .ok (inner', result, m)) :
    threshold ≠ 0 ∧ inner' = load inner m ∧
      generate p shares threshold drawn = .ok (result, m) := by
  simp only [init, bind_eq_ok, pure_eq_ok] at h
  obtain ⟨⟨⟩, hcheck, ⟨result', m'⟩, hgenerate, hout⟩ := h
  cases hout
  exact ⟨(checkInit_eq_ok hcheck).1, rfl, hgenerate⟩

/-! ## Only enough shares open the vault -/

def CollisionFree (p : Primitives) : Prop :=
  ∀ k k' check, checkValue p k = .ok check → checkValue p k' = .ok check → k = k'

theorem hexDigit_injOn : ∀ n < 16, ∀ k < 16, hexDigit n = hexDigit k → n = k := by
  decide +kernel

theorem hexEncode_injective : Function.Injective hexEncode := by
  intro a b h
  have hchars := String.ofList_injective h
  clear h
  induction a generalizing b with
  | nil =>
    cases b with
    | nil => rfl
    | cons y b => cases hchars
  | cons x a ih =>
    cases b with
    | nil => cases hchars
    | cons y b =>
      simp only [List.flatMap_cons, List.cons_append, List.nil_append, List.cons.injEq] at hchars
      obtain ⟨hhigh, hlow, hrest⟩ := hchars
      have hx := x.toNat_lt
      have hy := y.toNat_lt
      have hhigh := hexDigit_injOn _ (by omega) _ (by omega) hhigh
      have hlow := hexDigit_injOn _ (by omega) _ (by omega) hlow
      have hxy : x = y := UInt8.toNat_inj.mp (by omega)
      rw [hxy, ih hrest]

theorem collisionFree_indexed : CollisionFree .indexed := by
  rintro k k' check ⟨⟩ h
  exact Subtype.ext (hexEncode_injective (Except.ok.inj h).symm)

/-- The shares are recovered to an unseal key with the stored check value. -/
def Matches (p : Primitives) (m : SealMaterial) (shares : List Bytes) : Prop :=
  ∃ recovered unsealKey, p.sharks.recover m.threshold (sharesOf p shares) = .ok recovered ∧
    Block.ofSlice 32 recovered = some unsealKey ∧ checkValue p unsealKey = .ok m.unsealKeyCheck

theorem opening_cases (p : Primitives) (m : SealMaterial) (pending : List Bytes)
    (recovered : Bytes) :
    opening p m pending recovered = (none, pending) ∨ opening p m pending recovered = (none, []) ∨
      ∃ unsealKey rootKey, opening p m pending recovered = (some rootKey, []) ∧
        Block.ofSlice 32 recovered = some unsealKey ∧
        checkValue p unsealKey = .ok m.unsealKeyCheck ∧ opened p m unsealKey = some rootKey := by
  unfold opening
  split
  · exact .inr (.inl rfl)
  · next unsealKey hkey =>
    split
    · exact .inl rfl
    · next check hcheck =>
      by_cases hne : check ≠ m.unsealKeyCheck
      · exact .inr (.inl (if_pos hne))
      · rw [if_neg hne]
        split
        · exact .inl rfl
        · next rootKey hopened =>
          exact .inr (.inr ⟨unsealKey, rootKey, rfl, hkey, not_not.mp hne ▸ hcheck, hopened⟩)

/-- An attempt keeps its shares, drops them, or opens the vault with at least
`threshold` of them that match. -/
theorem attempt_cases (p : Primitives) (m : SealMaterial) (pending : List Bytes) :
    attempt p m pending = (none, pending) ∨ attempt p m pending = (none, []) ∨
      ∃ unsealKey rootKey, attempt p m pending = (some rootKey, []) ∧
        m.threshold.toNat ≤ pending.length ∧ Matches p m pending ∧
        checkValue p unsealKey = .ok m.unsealKeyCheck ∧ opened p m unsealKey = some rootKey := by
  unfold attempt
  split
  · exact .inl rfl
  · next hreached =>
    have hlength : m.threshold.toNat ≤ pending.length := by
      have hle := UInt8.le_iff_toNat_le.mp (UInt8.not_lt.mp hreached)
      rw [UInt8.toNat_ofNat'] at hle
      exact hle.trans (Nat.mod_le _ _)
    split
    · exact .inl rfl
    · next recovered hrecovered =>
      rcases opening_cases p m pending recovered with
        h | h | ⟨unsealKey, rootKey, h, hkey, hcheck, ho⟩
      · exact .inl h
      · exact .inr (.inl h)
      · exact .inr (.inr ⟨unsealKey, rootKey, h, hlength,
          ⟨recovered, unsealKey, hrecovered, hkey, hcheck⟩, hcheck, ho⟩)

def Submitted (p : Primitives) (calls : List Call) (raw : Bytes) : Prop :=
  ∃ shareB64, .unsealShare shareB64 ∈ calls ∧ readShare p shareB64 = some raw

theorem Submitted.concat {raw : Bytes}
    (h : Submitted p calls raw) (call : Call) : Submitted p (calls ++ [call]) raw := by
  obtain ⟨shareB64, hmem, hread⟩ := h
  exact ⟨shareB64, List.mem_append_left _ hmem, hread⟩

/-- Among the calls are submissions, with no other call between them, of at least
`threshold` distinct shares that match, and the vault was not sealed or reloaded
since. -/
def OpenedBy (p : Primitives) (m : SealMaterial) (calls : List Call) : Prop :=
  ∃ before submissions after shares, calls = before ++ submissions ++ after ∧
    (∀ call ∈ submissions, ∃ shareB64, call = .unsealShare shareB64) ∧
    (∀ call ∈ after, call ≠ .sealVault ∧ call ≠ .reload) ∧
    shares.Nodup ∧ m.threshold.toNat ≤ shares.length ∧
    (∀ raw ∈ shares, Submitted p submissions raw) ∧ Matches p m shares

theorem OpenedBy.concat
    (h : OpenedBy p m calls) (hseal : call ≠ .sealVault) (hreload : call ≠ .reload) :
    OpenedBy p m (calls ++ [call]) := by
  obtain ⟨before, submissions, after, shares, rfl, hsub, hafter, hshares⟩ := h
  refine ⟨before, submissions, after ++ [call], shares, by simp, hsub, fun c hc => ?_, hshares⟩
  rcases List.mem_append.mp hc with hc | hc
  · exact hafter c hc
  · rw [List.mem_singleton.mp hc]
    exact ⟨hseal, hreload⟩

structure Trail (p : Primitives) (m : SealMaterial) (rootKey : Key) (calls : List Call)
    (inner : SealInner) : Prop where
  material : inner.material = some m
  nodup : inner.pending.Nodup
  /-- The pending shares come from the submissions since the last other call. -/
  pending : ∃ before submissions, calls = before ++ submissions ∧
    (∀ call ∈ submissions, ∃ shareB64, call = .unsealShare shareB64) ∧
    ∀ raw ∈ inner.pending, Submitted p submissions raw
  root : ∀ key, inner.rootKey = some key → key = rootKey ∧ OpenedBy p m calls

section Soundness

variable {p : Primitives} {m : SealMaterial} {unsealKey rootKey : Key} {calls : List Call}
  {inner : SealInner}

section

variable (h : Trail p m rootKey calls inner)

include h

theorem Trail.clear (hm : inner'.material = some m) (hpending : inner'.pending = [])
    (hroot : ∀ key, inner'.rootKey = some key →
      inner.rootKey = some key ∧ call ≠ .sealVault ∧ call ≠ .reload) :
    Trail p m rootKey (calls ++ [call]) inner' := by
  refine ⟨hm, hpending ▸ List.nodup_nil, ⟨calls ++ [call], [], by simp, ?_, ?_⟩, ?_⟩
  · exact fun c hc => absurd hc List.not_mem_nil
  · rw [hpending]
    exact fun raw hraw => absurd hraw List.not_mem_nil
  · intro key hkey
    obtain ⟨hbefore, hseal, hreload⟩ := hroot key hkey
    obtain ⟨heq, hopened⟩ := h.root key hbefore
    exact ⟨heq, hopened.concat hseal hreload⟩

theorem Trail.extend (shareB64 : String) :
    ∃ before submissions, calls ++ [.unsealShare shareB64] = before ++ submissions ∧
      (∀ call ∈ submissions, ∃ shareB64, call = .unsealShare shareB64) ∧
      .unsealShare shareB64 ∈ submissions ∧ ∀ raw ∈ inner.pending, Submitted p submissions raw := by
  obtain ⟨before, submissions, hcalls, hsub, hpending⟩ := h.pending
  refine ⟨before, submissions ++ [.unsealShare shareB64], ?_, ?_, ?_, ?_⟩
  · rw [hcalls, List.append_assoc]
  · intro call hcall
    rcases List.mem_append.mp hcall with hcall | hcall
    · exact hsub call hcall
    · exact ⟨shareB64, List.mem_singleton.mp hcall⟩
  · exact List.mem_append_right _ List.mem_cons_self
  · exact fun raw hraw => (hpending raw hraw).concat _

theorem Trail.same (shareB64 : String) :
    Trail p m rootKey (calls ++ [.unsealShare shareB64]) inner := by
  obtain ⟨before, submissions, hcalls, hsub, -, hpending⟩ := h.extend shareB64
  refine ⟨h.material, h.nodup, ⟨before, submissions, hcalls, hsub, hpending⟩, fun key hkey => ?_⟩
  obtain ⟨heq, hopened⟩ := h.root key hkey
  exact ⟨heq, hopened.concat (by simp) (by simp)⟩

end

section

variable (hfree : CollisionFree p) (hkeeps : Keeps p m unsealKey rootKey)

include hfree hkeeps

theorem Trail.unsealShare (h : Trail p m rootKey calls inner) (shareB64 : String) :
    Trail p m rootKey (calls ++ [.unsealShare shareB64]) (afterShare p m inner shareB64) := by
  have hsame := h.same shareB64
  unfold afterShare
  split
  · exact hsame
  · next hsealed =>
    split
    · exact hsame
    · next raw hread =>
      by_cases hmem : raw ∈ inner.pending
      · rw [if_pos (List.contains_iff_mem.mpr hmem)]
        exact hsame
      · rw [if_neg (mt List.contains_iff_mem.mp hmem)]
        obtain ⟨before, submissions, hcalls, hsub, hlast, hpending⟩ := h.extend shareB64
        have hnodup : (inner.pending ++ [raw]).Nodup := by
          rw [← List.concat_eq_append]
          exact h.nodup.concat hmem
        have hnew : ∀ r ∈ inner.pending ++ [raw], Submitted p submissions r := by
          intro r hr
          rcases List.mem_append.mp hr with hr | hr
          · exact hpending r hr
          · exact ⟨shareB64, hlast, List.mem_singleton.mp hr ▸ hread⟩
        rcases attempt_cases p m (inner.pending ++ [raw]) with
          hkept | hdropped | ⟨key, opens, hopens, hlength, hmatches, hcheck, hopened⟩
        · rw [hkept]
          exact ⟨h.material, hnodup, ⟨before, submissions, hcalls, hsub, hnew⟩,
            fun key hkey => by cases hkey⟩
        · rw [hdropped]
          exact h.clear h.material rfl fun key hkey => by cases hkey
        · rw [hopens]
          refine ⟨h.material, List.nodup_nil, ⟨before, submissions, hcalls, hsub,
            fun r hr => absurd hr List.not_mem_nil⟩, fun k hk => ?_⟩
          cases hk
          have hkey : key = unsealKey := hfree key unsealKey _ hcheck hkeeps.check
          rw [hkey, hkeeps.opens] at hopened
          refine ⟨(Option.some.inj hopened).symm, before, submissions, [], inner.pending ++ [raw],
            ?_, hsub, fun c hc => absurd hc List.not_mem_nil, hnodup, hlength, hnew, hmatches⟩
          rw [List.append_nil, hcalls]

theorem Trail.step (h : Trail p m rootKey calls inner) (call : Call) :
    Trail p m rootKey (calls ++ [call]) (step p m inner call).1 := by
  cases call with
  | unsealShare shareB64 =>
    rw [step_unsealShare p m h.material]
    exact h.unsealShare hfree hkeeps shareB64
  | resetUnsealProgress => exact h.clear h.material rfl fun key hkey => ⟨hkey, by simp, by simp⟩
  | sealVault => exact h.clear h.material rfl fun key hkey => by cases hkey
  | reload => exact h.clear rfl rfl fun key hkey => by cases hkey

theorem trail_run
    (calls : List Call) : Trail p m rootKey calls (run (step p m) (load new m) calls) :=
  run_history (step p m) (Trail p m rootKey) (fun _ _ call h => h.step hfree hkeeps call)
    ⟨rfl, List.nodup_nil, ⟨[], [], rfl, fun _ hc => absurd hc List.not_mem_nil,
      fun _ hr => absurd hr List.not_mem_nil⟩, fun _ hk => by cases hk⟩ calls

end

end Soundness

/-- Whatever is submitted, reset, sealed and reloaded in whatever order, a vault
that was initialised gives out no other root key than the one it was initialised
with, and that only after enough distinct shares were submitted, without a seal,
a reset or a reload between them, that match the stored check value. -/
theorem root_key_needs_shares (p : Primitives) (hfree : CollisionFree p) (start inner : SealInner)
    (shares threshold : UInt8) (drawn : InitDraw) (result : InitResult) (m : SealMaterial)
    (hinit : init p start shares threshold drawn = .ok (inner, result, m)) (calls : List Call)
    (key : Key) (hkey : rootKey (run (step p m) (load new m) calls) = .ok key) :
    drawn.rootKey = some key ∧ OpenedBy p m calls := by
  obtain ⟨-, -, hgenerate⟩ := init_eq_ok hinit
  obtain ⟨root, unsealKey, hdrawn, hkeeps, -⟩ := generate_eq_ok hgenerate
  have hroot : (run (step p m) (load new m) calls).rootKey = some key := by
    unfold rootKey at hkey
    split at hkey
    · next k hk =>
      cases hkey
      exact hk
    · cases hkey
  obtain ⟨rfl, hopened⟩ := (trail_run hfree hkeeps calls).root key hroot
  exact ⟨hdrawn, hopened⟩

def sampleDraw : InitDraw where
  rootKey := some (.repeated 32 1)
  unsealKey := some (.repeated 32 2)
  nonce := some (.repeated 12 3)
  coefficients := []

/-- Two of three shares open the vault, although another one was submitted before
a reset. -/
theorem root_key_needs_shares_two_of_three :
    ∃ inner result m calls, init .indexed new 3 2 sampleDraw = .ok (inner, result, m) ∧
      calls = .unsealShare (result.shares.getD 2 "") :: .resetUnsealProgress ::
        (result.shares.take 2).map .unsealShare ∧
      rootKey (run (step .indexed m) (load new m) calls) = .ok (.repeated 32 1) ∧
      sampleDraw.rootKey = some (.repeated 32 1) ∧ OpenedBy .indexed m calls := by
  refine ⟨_, _, _, _, rfl, rfl, ?_, ?_⟩
  · decide +kernel
  · exact root_key_needs_shares .indexed collisionFree_indexed new _ 3 2 sampleDraw _ _ rfl _
      (.repeated 32 1) (by decide +kernel)

end Seal

end WslVault.Core
