import WslVault.Core.Verify.Unseal

/-!
# Wrong shares

A set of shares that gives the wrong unseal key is dropped. One that cannot be put together,
because its shares differ in length, is kept, and with it every later submission fails as
well. The number of pending shares is compared with the threshold as a `u8`.
-/

namespace WslVault.Core

open Base

/-! ## What is asked of the sharing library -/

/-- The x coordinate of a share and the number of its y bytes. -/
structure Sharks.Coordinates (sharks : Sharks) where
  point : sharks.Share → UInt8
  size : sharks.Share → Nat

namespace Sharks.Coordinates

variable {sharks : Sharks} (x : sharks.Coordinates) (shares : List sharks.Share)

def points : Nat := (shares.map x.point).toFinset.card

def SameSize : Prop :=
  ∀ a ∈ shares, ∀ b ∈ shares, x.size a = x.size b

end Sharks.Coordinates

/-- Dealt shares have points of their own and the size of the secret, and are
read back from their bytes. Shares of different sizes and too few points cannot
be put together, all others can, and dealt ones give the secret if none is there
twice. -/
structure Sharks.Recovers (sharks : Sharks) (x : sharks.Coordinates) : Prop where
  length_eq : ∀ {raw share}, sharks.tryFrom raw = .ok share → raw.length = x.size share + 1
  tryFrom_dealt : ∀ {t secret coefficients i}, secret ≠ [] → i < 255 →
    sharks.tryFrom (sharks.toVec (sharks.dealer t secret coefficients i)) =
      .ok (sharks.dealer t secret coefficients i)
  size_dealt : ∀ {t secret coefficients i}, i < 255 →
    x.size (sharks.dealer t secret coefficients i) = secret.length
  point_dealt : ∀ {t secret coefficients i j}, i < 255 → j < 255 →
    x.point (sharks.dealer t secret coefficients i) =
      x.point (sharks.dealer t secret coefficients j) → i = j
  recover_fails : ∀ {t : UInt8} {shares}, t ≠ 0 → ((∃ e, sharks.recover t shares = .error e) ↔
      ¬ x.SameSize shares ∨ x.points shares < t.toNat)
  recover_dealt : ∀ {t : UInt8} {secret coefficients shares}, t ≠ 0 →
    (∀ share ∈ shares, ∃ i < 255, share = sharks.dealer t secret coefficients i) →
    (shares.map x.point).Nodup → t.toNat ≤ shares.length → sharks.recover t shares = .ok secret

namespace Seal

variable {pending raws : List Bytes} {raw : Bytes} {p : Primitives} {m : SealMaterial}

theorem mem_sharesOf {share : p.sharks.Share} :
    share ∈ sharesOf p pending ↔ ∃ raw ∈ pending, p.sharks.tryFrom raw = .ok share := by
  simp only [sharesOf, List.mem_filterMap, toOption_eq_some]

/-- A vault whose material belongs to the two keys, with a sharing library and a
check value that do what is asked of them. -/
structure Setting (p : Primitives) (x : p.sharks.Coordinates) (m : SealMaterial)
    (unsealKey rootKey : Key) : Prop where
  recovers : p.sharks.Recovers x
  keeps : Keeps p m unsealKey rootKey
  total : ∀ k, ∃ check, checkValue p k = .ok check
  free : CollisionFree p
  threshold : m.threshold ≠ 0

def Recoverable (p : Primitives) (m : SealMaterial) (pending : List Bytes) : Prop :=
  ∃ recovered, p.sharks.recover m.threshold (sharesOf p pending) = .ok recovered

/-- What holds of the pending shares after every submission: an attempt was made
with them if there were enough, so they cannot be put together. -/
structure Attempted (p : Primitives) (m : SealMaterial) (inner : SealInner) : Prop where
  material : inner.material = some m
  nodup : inner.pending.Nodup
  read : ∀ raw ∈ inner.pending, ∃ share, p.sharks.tryFrom raw = .ok share
  opened : inner.rootKey.isSome = true → inner.pending = []
  stuck : inner.pending.length < 256 → ¬ Recoverable p m inner.pending

def IsDealt (p : Primitives) (m : SealMaterial) (unsealKey : Key) (coefficients raw : Bytes) :
    Prop :=
  ∃ i < 255, raw = dealt p m.threshold unsealKey coefficients i

def submitAll (p : Primitives) (m : SealMaterial) (inner : SealInner) (raws : List Bytes) :
    SealInner :=
  run (step p m) inner ((raws.map Base64.encode).map .unsealShare)

section Submissions

variable {p : Primitives} {x : p.sharks.Coordinates} {m : SealMaterial} {unsealKey rootKey : Key}
  {coefficients bad : Bytes} {inner out : SealInner} (h : Setting p x m unsealKey rootKey)

include h

theorem not_recoverable_of_few
    (hfew : pending.length < m.threshold.toNat) : ¬ Recoverable p m pending := by
  rintro ⟨recovered, hrecovered⟩
  have hpoints : x.points (sharesOf p pending) < m.threshold.toNat := by
    have hcard := List.toFinset_card_le ((sharesOf p pending).map x.point)
    have hlength : (sharesOf p pending).length ≤ pending.length := List.length_filterMap_le _ _
    rw [List.length_map] at hcard
    exact lt_of_le_of_lt (hcard.trans hlength) hfew
  obtain ⟨e, he⟩ := (h.recovers.recover_fails h.threshold).mpr (.inr hpoints)
  rw [he] at hrecovered
  cases hrecovered

/-- An attempt keeps shares that cannot be put together, drops those that give
another unseal key, and opens the vault otherwise. -/
theorem attempt_outcome (pending : List Bytes) :
    (attempt p m pending = (none, pending) ∧ (pending.length < 256 → ¬ Recoverable p m pending)) ∨
    (Recoverable p m pending ∧ ((attempt p m pending = (none, []) ∧
          p.sharks.recover m.threshold (sharesOf p pending) ≠ .ok unsealKey.val) ∨
        attempt p m pending = (some rootKey, []))) := by
  unfold attempt
  split
  · next hlt =>
    refine .inl ⟨rfl, fun hsmall => not_recoverable_of_few h ?_⟩
    have := UInt8.lt_iff_toNat_lt.mp hlt
    rwa [UInt8.toNat_ofNat', Nat.mod_eq_of_lt hsmall] at this
  · cases hrec : p.sharks.recover m.threshold (sharesOf p pending) with
    | error e =>
      refine .inl ⟨rfl, ?_⟩
      rintro - ⟨recovered, hrecovered⟩
      rw [hrec] at hrecovered
      cases hrecovered
    | ok recovered =>
      refine .inr ⟨⟨recovered, hrec⟩, ?_⟩
      dsimp only
      unfold opening
      cases hblock : Block.ofSlice 32 recovered with
      | none =>
        refine .inl ⟨rfl, fun heq => ?_⟩
        cases heq
        rw [Block.ofSlice_val] at hblock
        cases hblock
      | some k =>
        obtain ⟨check, hcheck⟩ := h.total k
        simp only [hcheck]
        by_cases hne : check ≠ m.unsealKeyCheck
        · refine .inl ⟨if_pos hne, fun heq => hne ?_⟩
          cases heq
          rw [Block.ofSlice_val] at hblock
          cases hblock
          exact Except.ok.inj (hcheck.symm.trans h.keeps.check)
        · have hk : k = unsealKey := h.free k unsealKey _ (not_not.mp hne ▸ hcheck) h.keeps.check
          rw [if_neg hne, hk, h.keeps.opens]
          exact .inr rfl

theorem attempted_load (inner : SealInner) :
    Attempted p m (load inner m) := by
  refine ⟨rfl, List.nodup_nil, fun _ hr => absurd hr List.not_mem_nil, fun _ => rfl, fun _ => ?_⟩
  refine not_recoverable_of_few h (Nat.pos_of_ne_zero fun hzero => h.threshold ?_)
  exact UInt8.toNat_inj.mp hzero

omit h in
theorem tryFrom_of_readShare {shareB64 : String} (h : readShare p shareB64 = some raw) :
    ∃ share, p.sharks.tryFrom raw = .ok share := by
  unfold readShare at h
  split at h
  · cases h
  · split at h
    · cases h
    · next share hshare =>
      cases h
      exact ⟨share, hshare⟩

omit h in
theorem afterShare_of_unsealed (h : inner.rootKey.isSome = true) (shareB64 : String) :
    afterShare p m inner shareB64 = inner := by
  unfold afterShare
  rw [if_pos h]

/-- What one submission does to a sealed vault: nothing, if the text is no share
or the share is pending; otherwise the share is kept with the others, or all are
dropped, or the vault opens. -/
theorem afterShare_cases (hsealed : inner.rootKey = none) (shareB64 : String) :
    (afterShare p m inner shareB64 = inner ∧
      ∀ raw, readShare p shareB64 = some raw → raw ∈ inner.pending) ∨
    ∃ raw, readShare p shareB64 = some raw ∧ raw ∉ inner.pending ∧
      ((afterShare p m inner shareB64 = { inner with pending := inner.pending ++ [raw] } ∧
          ((inner.pending ++ [raw]).length < 256 → ¬ Recoverable p m (inner.pending ++ [raw]))) ∨
        (Recoverable p m (inner.pending ++ [raw]) ∧
          ((afterShare p m inner shareB64 = { inner with pending := [] } ∧
              p.sharks.recover m.threshold (sharesOf p (inner.pending ++ [raw])) ≠
                .ok unsealKey.val) ∨
            afterShare p m inner shareB64 =
              { inner with rootKey := some rootKey, pending := [] }))) := by
  obtain ⟨material, root, pending⟩ := inner
  cases hsealed
  unfold afterShare
  simp only [Option.isSome_none, Bool.false_eq_true, if_false]
  cases hread : readShare p shareB64 with
  | none => exact .inl ⟨rfl, fun raw hraw => by cases hraw⟩
  | some raw =>
    by_cases hmem : raw ∈ pending
    · refine .inl ⟨if_pos (List.contains_iff_mem.mpr hmem), fun r hr => ?_⟩
      cases hr
      exact hmem
    · refine .inr ⟨raw, rfl, hmem, ?_⟩
      simp only [List.contains_iff_mem, hmem, if_false]
      rcases attempt_outcome h (pending ++ [raw]) with
        ⟨hkept, hstuck⟩ | ⟨hrec, ⟨hdropped, hne⟩ | hopened⟩
      · rw [hkept]
        exact .inl ⟨rfl, hstuck⟩
      · rw [hdropped]
        exact .inr ⟨hrec, .inl ⟨rfl, hne⟩⟩
      · rw [hopened]
        exact .inr ⟨hrec, .inr rfl⟩

theorem Attempted.afterShare (hi : Attempted p m inner) (shareB64 : String) :
    Attempted p m (afterShare p m inner shareB64) := by
  have hload := attempted_load h inner
  cases hroot : inner.rootKey with
  | some key =>
    rw [afterShare_of_unsealed (by rw [hroot]; rfl)]
    exact hi
  | none =>
    rcases afterShare_cases h hroot shareB64 with
      ⟨hsame, -⟩ | ⟨raw, hread, hnew, ⟨hkept, hstuck⟩ | ⟨-, ⟨hdropped, -⟩ | hopened⟩⟩
    · rw [hsame]
      exact hi
    · rw [hkept]
      refine ⟨hi.material, ?_, ?_, fun hopen => ?_, hstuck⟩
      · rw [← List.concat_eq_append]
        exact hi.nodup.concat hnew
      · intro r hr
        rcases List.mem_append.mp hr with hr | hr
        · exact hi.read r hr
        · rw [List.mem_singleton.mp hr]
          exact tryFrom_of_readShare hread
      · rw [hroot] at hopen
        cases hopen
    · rw [hdropped]
      exact ⟨hi.material, hload.nodup, hload.read, fun _ => rfl, hload.stuck⟩
    · rw [hopened]
      exact ⟨hi.material, hload.nodup, hload.read, fun _ => rfl, hload.stuck⟩

theorem Attempted.run (hi : Attempted p m inner) (texts : List String) :
    Attempted p m (run (step p m) inner (texts.map .unsealShare)) := by
  induction texts generalizing inner with
  | nil => exact hi
  | cons text texts ih =>
    have hnext := hi.afterShare h text
    rw [← step_unsealShare p m hi.material] at hnext
    exact ih hnext

/-! ## Genuine shares -/

omit h in
theorem key_ne_nil (k : Key) : k.val ≠ [] := by
  intro hnil
  have := k.property
  rw [hnil] at this
  cases this

theorem tryFrom_dealt {i : Nat} (hi : i < 255) :
    p.sharks.tryFrom (dealt p m.threshold unsealKey coefficients i) =
      .ok (p.sharks.dealer m.threshold unsealKey.val coefficients i) :=
  h.recovers.tryFrom_dealt (key_ne_nil unsealKey) hi

theorem length_of_isDealt (hraw : IsDealt p m unsealKey coefficients raw) : raw.length = 33 := by
  obtain ⟨i, hi, rfl⟩ := hraw
  rw [h.recovers.length_eq (tryFrom_dealt h hi), h.recovers.size_dealt hi, unsealKey.property]

omit h in
theorem trim_encode (raw : Bytes) : Text.trim (Base64.encode raw) = Base64.encode raw := by
  have hsymbol : ∀ n < 64, Text.isWhitespace (Base64.symbol n) = false := by decide +kernel
  apply Text.trim_of_no_space
  intro c hc
  rw [Base64.encode, String.toList_ofList] at hc
  rcases Base64.mem_encodeChars hc with rfl | ⟨n, hn, rfl⟩
  · decide
  · exact hsymbol n hn

theorem readShare_encode (hraw : IsDealt p m unsealKey coefficients raw) :
    readShare p (Base64.encode raw) = some raw := by
  obtain ⟨i, hi, rfl⟩ := hraw
  simp only [readShare, trim_encode, Base64.decode_encode, tryFrom_dealt h hi]

section

variable (hraws : ∀ raw ∈ raws, IsDealt p m unsealKey coefficients raw) (hnodup : raws.Nodup)

include hraws hnodup

theorem sharesOf_dealt :
    (sharesOf p raws).length = raws.length ∧ ((sharesOf p raws).map x.point).Nodup ∧
      ∀ share ∈ sharesOf p raws,
        ∃ i < 255, share = p.sharks.dealer m.threshold unsealKey.val coefficients i := by
  choose! index hindex using hraws
  have hshares : sharesOf p raws = raws.map fun raw =>
      p.sharks.dealer m.threshold unsealKey.val coefficients (index raw) := by
    rw [← List.filterMap_eq_map]
    refine List.filterMap_congr fun raw hraw => ?_
    obtain ⟨hlt, heq⟩ := hindex raw hraw
    conv_lhs => rw [heq, tryFrom_dealt h hlt]
    rfl
  refine ⟨by rw [hshares, List.length_map], ?_, ?_⟩
  · rw [hshares, List.map_map]
    refine hnodup.map_on fun a ha b hb hpoint => ?_
    have heq := h.recovers.point_dealt (hindex a ha).1 (hindex b hb).1 hpoint
    rw [(hindex a ha).2, (hindex b hb).2, heq]
  · intro share hshare
    rw [hshares] at hshare
    obtain ⟨raw, hraw, rfl⟩ := List.mem_map.mp hshare
    exact ⟨index raw, (hindex raw hraw).1, rfl⟩

theorem recover_dealt (hlength : m.threshold.toNat ≤ raws.length) :
    p.sharks.recover m.threshold (sharesOf p raws) = .ok unsealKey.val := by
  obtain ⟨hsame, hpoints, hdealt⟩ := sharesOf_dealt h hraws hnodup
  exact h.recovers.recover_dealt h.threshold hdealt hpoints (hsame ▸ hlength)

end

theorem recoverable_iff (pending : List Bytes) :
    Recoverable p m pending ↔
      x.SameSize (sharesOf p pending) ∧ m.threshold.toNat ≤ x.points (sharesOf p pending) := by
  rw [← not_iff_not, not_and_or, not_le, ← h.recovers.recover_fails h.threshold]
  unfold Recoverable
  cases p.sharks.recover m.threshold (sharesOf p pending) with
  | error e => simp
  | ok recovered => simp

theorem recoverable_of_subset (hpending : ∀ raw ∈ pending, raw.length = 33)
    (hraws : ∀ raw ∈ raws, IsDealt p m unsealKey coefficients raw) (hnodup : raws.Nodup)
    (hlength : m.threshold.toNat ≤ raws.length) (hsub : raws ⊆ pending) :
    Recoverable p m pending := by
  rw [recoverable_iff h]
  constructor
  · have hsize : ∀ share ∈ sharesOf p pending, x.size share + 1 = 33 := by
      intro share hshare
      obtain ⟨raw, hraw, hread⟩ := mem_sharesOf.mp hshare
      rw [← h.recovers.length_eq hread, hpending raw hraw]
    intro a ha b hb
    exact Nat.succ.inj ((hsize a ha).trans (hsize b hb).symm)
  · obtain ⟨hsame, hpoints, -⟩ := sharesOf_dealt h hraws hnodup
    have hshares : sharesOf p raws ⊆ sharesOf p pending := List.filterMap_subset _ hsub
    calc m.threshold.toNat ≤ ((sharesOf p raws).map x.point).length := by
          rw [List.length_map, hsame]
          exact hlength
      _ = ((sharesOf p raws).map x.point).toFinset.card :=
          (List.toFinset_card_of_nodup hpoints).symm
      _ ≤ x.points (sharesOf p pending) := by
          refine Finset.card_le_card fun point hpoint => ?_
          rw [List.mem_toFinset] at hpoint ⊢
          exact List.map_subset x.point hshares hpoint

theorem not_recoverable_of_length
    (hread : ∀ raw ∈ pending, ∃ share, p.sharks.tryFrom raw = .ok share)
    (hraw : raw ∈ pending) (hbad : bad ∈ pending) (hne : bad.length ≠ raw.length) :
    ¬ Recoverable p m pending := by
  intro hrec
  obtain ⟨share, hshare⟩ := hread raw hraw
  obtain ⟨badShare, hbadShare⟩ := hread bad hbad
  have hsize := ((recoverable_iff h pending).mp hrec).1 badShare
    (mem_sharesOf.mpr ⟨bad, hbad, hbadShare⟩) share (mem_sharesOf.mpr ⟨raw, hraw, hshare⟩)
  rw [h.recovers.length_eq hshare, h.recovers.length_eq hbadShare, hsize] at hne
  exact hne rfl

/-! ## Submitting them -/

theorem Attempted.submitAll (hi : Attempted p m inner) (raws : List Bytes) :
    Attempted p m (submitAll p m inner raws) :=
  hi.run h (raws.map Base64.encode)

omit h in
theorem submitAll_cons (hi : Attempted p m inner) (raw : Bytes) (raws : List Bytes) :
    submitAll p m inner (raw :: raws) =
      submitAll p m (afterShare p m inner (Base64.encode raw)) raws := by
  rw [← step_unsealShare p m hi.material]
  rfl

omit h in
theorem submitAll_append (raws raws' : List Bytes) :
    submitAll p m inner (raws ++ raws') = submitAll p m (submitAll p m inner raws) raws' := by
  simp only [submitAll, List.map_append, run_append]

/-- What the submission of a genuine share does to a sealed vault: the share is
pending with the others; or, if they can be put together, the vault opens, or all
are dropped, and one of them was not genuine. -/
theorem submit_cases (hi : Attempted p m inner) (hsealed : inner.rootKey = none)
    (hraw : IsDealt p m unsealKey coefficients raw)
    {inner' : SealInner} (hafter : afterShare p m inner (Base64.encode raw) = inner') :
    (inner'.rootKey = none ∧ (∀ r, r ∈ inner'.pending ↔ r ∈ inner.pending ∨ r = raw) ∧
      inner'.pending.length ≤ inner.pending.length + 1) ∨
    (Recoverable p m (inner.pending ++ [raw]) ∧ (inner'.rootKey.isSome = true ∨
      (inner'.rootKey = none ∧ inner'.pending = [] ∧
        ∃ r ∈ inner.pending, ¬ IsDealt p m unsealKey coefficients r))) := by
  subst hafter
  have hread := readShare_encode h hraw
  rcases afterShare_cases h hsealed (Base64.encode raw) with
    ⟨hsame, hmem⟩ | ⟨r, hr, hnew, ⟨hkept, -⟩ | ⟨hrec, ⟨hdropped, hne⟩ | hopened⟩⟩
  · rw [hsame]
    refine .inl ⟨hsealed, fun r => ⟨.inl, ?_⟩, Nat.le_succ _⟩
    rintro (hr | rfl)
    · exact hr
    · exact hmem r hread
  all_goals
    rw [hread] at hr
    cases hr
  · rw [hkept]
    exact .inl ⟨hsealed, fun r => by rw [List.mem_append, List.mem_singleton], by simp⟩
  · rw [hdropped]
    refine .inr ⟨hrec, .inr ⟨hsealed, rfl, ?_⟩⟩
    -- were all of them genuine, they would have given the unseal key
    by_contra! hall
    have hdealt : ∀ r ∈ inner.pending ++ [raw], IsDealt p m unsealKey coefficients r := by
      intro r hr
      rcases List.mem_append.mp hr with hr | hr
      · exact hall r hr
      · exact List.mem_singleton.mp hr ▸ hraw
    have hnodup : (inner.pending ++ [raw]).Nodup := by
      rw [← List.concat_eq_append]
      exact hi.nodup.concat hnew
    have hlength : m.threshold.toNat ≤ (inner.pending ++ [raw]).length := by
      by_contra hfew
      exact not_recoverable_of_few h (Nat.lt_of_not_le hfew) hrec
    exact hne (recover_dealt h hdealt hnodup hlength)
  · rw [hopened]
    exact .inr ⟨hrec, .inl rfl⟩

section

variable (hi : Attempted p m inner)

include hi

omit h in
theorem submitAll_of_unsealed (hopen : inner.rootKey.isSome = true)
    (raws : List Bytes) : submitAll p m inner raws = inner := by
  induction raws with
  | nil => rfl
  | cons raw raws ih => rw [submitAll_cons hi, afterShare_of_unsealed hopen, ih]

/-- A round of genuine shares that leaves the vault sealed has dropped nothing, so that they
are pending with the others; or it has dropped a share that is not genuine, and only genuine
ones are left. -/
theorem submitAll_cases (hraws : ∀ raw ∈ raws, IsDealt p m unsealKey coefficients raw)
    (hout : submitAll p m inner raws = out) (hsealed : out.rootKey = none) :
    ((∀ r ∈ out.pending, r ∈ inner.pending ∨ IsDealt p m unsealKey coefficients r) ∧
      inner.pending ⊆ out.pending ∧ raws ⊆ out.pending ∧
      out.pending.length ≤ inner.pending.length + raws.length) ∨
    (∃ r ∈ inner.pending, ¬ IsDealt p m unsealKey coefficients r) ∧
      ∀ r ∈ out.pending, IsDealt p m unsealKey coefficients r := by
  induction raws generalizing inner with
  | nil =>
    subst hout
    exact .inl ⟨fun r hr => .inl hr, fun r hr => hr, List.nil_subset _, Nat.le_refl _⟩
  | cons raw raws ih =>
    have hnext := hi.afterShare h (Base64.encode raw)
    rw [submitAll_cons hi] at hout
    cases hroot : inner.rootKey with
    | some key =>
      rw [afterShare_of_unsealed (by rw [hroot]; rfl),
        submitAll_of_unsealed hi (by rw [hroot]; rfl)] at hout
      rw [← hout, hroot] at hsealed
      cases hsealed
    | none =>
      have hraw := hraws raw List.mem_cons_self
      have hrest := ih hnext (fun r hr => hraws r (List.mem_cons_of_mem raw hr)) hout
      rcases submit_cases h hi hroot hraw rfl with
        ⟨-, hmem, hlength⟩ | ⟨-, hopen | ⟨-, hempty, hdropped⟩⟩
      · rcases hrest with ⟨hall, hkept, hsub, hlength'⟩ | ⟨⟨r, hr, hnot⟩, hdealt⟩
        · refine .inl ⟨fun r hr => ?_, fun r hr => hkept ((hmem r).mpr (.inl hr)), ?_, ?_⟩
          · rcases hall r hr with hr | hr
            · rcases (hmem r).mp hr with hr | rfl
              · exact .inl hr
              · exact .inr hraw
            · exact .inr hr
          · exact List.cons_subset.mpr ⟨hkept ((hmem raw).mpr (.inr rfl)), hsub⟩
          · rw [List.length_cons]
            omega
        · refine .inr ⟨⟨r, ((hmem r).mp hr).resolve_right ?_, hnot⟩, hdealt⟩
          rintro rfl
          exact hnot hraw
      · rw [submitAll_of_unsealed hnext hopen] at hout
        rw [hout, hsealed] at hopen
        cases hopen
      · refine .inr ⟨hdropped, fun r hr => ?_⟩
        rw [hempty] at hrest
        rcases hrest with ⟨hall, -⟩ | ⟨-, hdealt⟩
        · exact (hall r hr).resolve_left List.not_mem_nil
        · exact hdealt r hr

theorem submitAll_clean (hclean : ∀ r ∈ inner.pending, IsDealt p m unsealKey coefficients r)
    (hraws : ∀ raw ∈ raws, IsDealt p m unsealKey coefficients raw)
    (hout : submitAll p m inner raws = out) (hsealed : out.rootKey = none) :
    (∀ r ∈ out.pending, IsDealt p m unsealKey coefficients r) ∧ raws ⊆ out.pending := by
  rcases submitAll_cases h hi hraws hout hsealed with ⟨hall, -, hsub, -⟩ | ⟨⟨r, hr, hnot⟩, -⟩
  · exact ⟨fun r hr => (hall r hr).elim (hclean r) id, hsub⟩
  · exact absurd (hclean r hr) hnot

theorem submitAll_wedged (hsealed : inner.rootKey = none) (hbad : bad ∈ inner.pending)
    (hlength : bad.length ≠ 33) (hraws : ∀ raw ∈ raws, IsDealt p m unsealKey coefficients raw) :
    (submitAll p m inner raws).rootKey = none := by
  induction raws generalizing inner with
  | nil => exact hsealed
  | cons raw raws ih =>
    have hraw := hraws raw List.mem_cons_self
    rw [submitAll_cons hi]
    rcases submit_cases h hi hsealed hraw rfl with ⟨hroot, hmem, -⟩ | ⟨hrec, -⟩
    · exact ih (hi.afterShare h _) hroot ((hmem bad).mpr (.inl hbad))
        fun r hr => hraws r (List.mem_cons_of_mem raw hr)
    · have hread : ∀ r ∈ inner.pending ++ [raw], ∃ share, p.sharks.tryFrom r = .ok share := by
        intro r hr
        rcases List.mem_append.mp hr with hr | hr
        · exact hi.read r hr
        · rw [List.mem_singleton.mp hr]
          exact tryFrom_of_readShare (readShare_encode h hraw)
      refine absurd hrec (not_recoverable_of_length h hread
        (List.mem_append_right _ List.mem_cons_self) (List.mem_append_left _ hbad) ?_)
      rwa [length_of_isDealt h hraw]

end

omit h in
theorem length_le_of_isDealt (hnodup : pending.Nodup)
    (hdealt : ∀ r ∈ pending, IsDealt p m unsealKey coefficients r) : pending.length ≤ 255 := by
  have hsub : pending ⊆ (List.range 255).map (dealt p m.threshold unsealKey coefficients) := by
    intro r hr
    obtain ⟨i, hi, rfl⟩ := hdealt r hr
    exact List.mem_map_of_mem (List.mem_range.mpr hi)
  have hle := hnodup.length_le_of_subset hsub
  rwa [List.length_map, List.length_range] at hle

theorem submitAll_twice (hi : Attempted p m inner)
    (hraws : ∀ raw ∈ raws, IsDealt p m unsealKey coefficients raw)
    (hnodup : raws.Nodup) (hlength : raws.length = m.threshold.toNat)
    (hroom : inner.pending.length + m.threshold.toNat < 256)
    (hpending : ∀ r ∈ inner.pending, r.length = 33) :
    (submitAll p m inner (raws ++ raws)).rootKey.isSome = true := by
  rw [submitAll_append]
  have hfirst := hi.submitAll h raws
  have hsecond := hfirst.submitAll h raws
  rw [← Option.ne_none_iff_isSome]
  intro hsealed
  have hsealed' : (submitAll p m inner raws).rootKey = none := by
    cases hroot : (submitAll p m inner raws).rootKey with
    | none => rfl
    | some key =>
      rw [submitAll_of_unsealed hfirst (by rw [hroot]; rfl), hroot] at hsealed
      cases hsealed
  rcases submitAll_cases h hi hraws rfl hsealed' with ⟨hall, -, hsub, hle⟩ | ⟨-, hclean⟩
  · have hlengths : ∀ r ∈ (submitAll p m inner raws).pending, r.length = 33 :=
      fun r hr => (hall r hr).elim (hpending r) (length_of_isDealt h)
    exact hfirst.stuck (by omega) (recoverable_of_subset h hlengths hraws hnodup hlength.ge hsub)
  · obtain ⟨hdealt, hsub⟩ := submitAll_clean h hfirst hclean hraws rfl hsealed
    have hsmall := length_le_of_isDealt hsecond.nodup hdealt
    exact hsecond.stuck (by omega) (recoverable_of_subset h
      (fun r hr => length_of_isDealt h (hdealt r hr)) hraws hnodup hlength.ge hsub)

end Submissions

theorem exists_dealt {unsealKey : Key} {coefficients : Bytes}
    {shares : UInt8} {genuine : List String} (hdistinct : genuine.Nodup)
    (hgenuine : genuine ⊆ (List.range shares.toNat).map fun i =>
      Base64.encode (dealt p m.threshold unsealKey coefficients i)) :
    ∃ raws : List Bytes, genuine = raws.map Base64.encode ∧ raws.Nodup ∧
      ∀ raw ∈ raws, IsDealt p m unsealKey coefficients raw := by
  have hdealt : ∀ text ∈ genuine, ∃ raw, IsDealt p m unsealKey coefficients raw ∧
      text = Base64.encode raw := by
    intro text htext
    obtain ⟨i, hi, rfl⟩ := List.mem_map.mp (hgenuine htext)
    have hlt : i < 255 :=
      Nat.lt_of_lt_of_le (List.mem_range.mp hi) (Nat.le_of_lt_succ shares.toNat_lt)
    exact ⟨_, ⟨i, hlt, rfl⟩, rfl⟩
  choose! decoded hdecoded using hdealt
  have htexts : genuine = (genuine.map decoded).map Base64.encode := by
    rw [List.map_map]
    exact (List.map_id' genuine).symm.trans
      (List.map_congr_left fun text htext => (hdecoded text htext).2)
  refine ⟨genuine.map decoded, htexts, ?_, ?_⟩
  · rw [htexts] at hdistinct
    exact hdistinct.of_map
  · intro raw hraw
    obtain ⟨text, htext, rfl⟩ := List.mem_map.mp hraw
    exact (hdecoded text htext).1

/-- Enough shares of an initialisation, submitted to a vault that has just loaded
its material, give the root key of the initialisation. -/
theorem shares_open {x : p.sharks.Coordinates} (hrecovers : p.sharks.Recovers x)
    (hfree : CollisionFree p) (htotal : ∀ k, ∃ check, checkValue p k = .ok check)
    {shares threshold : UInt8} {drawn : InitDraw} {result : InitResult}
    (hgenerate : generate p shares threshold drawn = .ok (result, m)) (hthreshold : threshold ≠ 0)
    {genuine : List String} (hgenuine : genuine ⊆ result.shares) (hdistinct : genuine.Nodup)
    (hlength : genuine.length = threshold.toNat) :
    (run (step p m) (load new m) (genuine.map .unsealShare)).rootKey = drawn.rootKey := by
  obtain ⟨root, unsealKey, hroot, hkeeps, rfl, -, hshares⟩ := generate_eq_ok hgenerate
  have h : Setting p x m unsealKey root := ⟨hrecovers, hkeeps, htotal, hfree, hthreshold⟩
  have hi := (attempted_load h new).run h genuine
  have htrail := trail_run hfree hkeeps (genuine.map .unsealShare)
  cases hopen : (run (step p m) (load new m) (genuine.map .unsealShare)).rootKey with
  | some key => rw [(htrail.root key hopen).1, hroot]
  | none =>
    obtain ⟨raws, rfl, hnodup, hraws⟩ := exists_dealt hdistinct (hshares ▸ hgenuine)
    rw [List.length_map] at hlength
    obtain ⟨hdealt, hsub⟩ := submitAll_clean h (attempted_load h new)
      (fun r hr => absurd hr List.not_mem_nil) hraws rfl hopen
    have hsmall := length_le_of_isDealt hi.nodup hdealt
    exact absurd (recoverable_of_subset h (fun r hr => length_of_isDealt h (hdealt r hr)) hraws
      hnodup hlength.ge hsub) (hi.stuck (Nat.lt_succ_of_le hsmall))

def coordinates : Sharks.indexed.Coordinates where
  point := Prod.fst
  size share := share.2.length

theorem recover_indexed_eq_ok {t : UInt8} {first : UInt8 × Bytes} {shares : List (UInt8 × Bytes)}
    (hsize : ∀ share ∈ first :: shares, share.2.length = first.2.length)
    (hpoints : t.toNat ≤ coordinates.points (first :: shares)) :
    Sharks.indexed.recover t (first :: shares) = .ok first.2 := by
  have hnone : ¬ ∃ share ∈ first :: shares, share.2.length ≠ first.2.length := by
    rintro ⟨share, hshare, hne⟩
    exact hne (hsize share hshare)
  have hcard : ¬ ((first :: shares).map Prod.fst).dedup.length < t.toNat := Nat.not_lt.mpr hpoints
  simp only [Sharks.indexed, if_neg hnone, if_neg hcard]

theorem recovers_indexed : Sharks.indexed.Recovers coordinates where
  length_eq := by
    intro raw share h
    match raw, h with
    | _ :: _ :: _, rfl => rfl
  tryFrom_dealt := by
    intro t secret coefficients i hsecret hi
    cases secret with
    | nil => exact absurd rfl hsecret
    | cons b bytes => rfl
  size_dealt := fun _ => rfl
  point_dealt := by
    intro t secret coefficients i j hi hj hpoint
    have hnat := congrArg UInt8.toNat hpoint
    simp only [coordinates, Sharks.indexed, UInt8.toNat_ofNat'] at hnat
    omega
  recover_fails := by
    intro t shares ht
    cases shares with
    | nil =>
      have hpos : 0 < t.toNat := Nat.pos_of_ne_zero fun hzero => ht (UInt8.toNat_inj.mp hzero)
      exact ⟨fun _ => .inr hpos, fun _ => ⟨_, rfl⟩⟩
    | cons first shares =>
      constructor
      · rintro ⟨e, he⟩
        by_contra! hnot
        obtain ⟨hsame, hpoints⟩ := hnot
        rw [recover_indexed_eq_ok (fun share hshare => hsame share hshare first List.mem_cons_self)
          hpoints] at he
        cases he
      · rintro (hdiffer | hfew)
        · have hsome : ∃ share ∈ first :: shares, share.2.length ≠ first.2.length := by
            by_contra! hall
            exact hdiffer fun a ha b hb => (hall a ha).trans (hall b hb).symm
          exact ⟨_, if_pos hsome⟩
        · by_cases hsome : ∃ share ∈ first :: shares, share.2.length ≠ first.2.length
          · exact ⟨_, if_pos hsome⟩
          · exact ⟨_, (if_neg hsome).trans (if_pos hfew)⟩
  recover_dealt := by
    intro t secret coefficients shares ht hdealt hnodup hlength
    have hsecret : ∀ share ∈ shares, share.2 = secret := by
      intro share hshare
      obtain ⟨i, -, rfl⟩ := hdealt share hshare
      rfl
    cases shares with
    | nil =>
      exact absurd (UInt8.toNat_inj.mp (Nat.le_zero.mp hlength)) ht
    | cons first shares =>
      refine (recover_indexed_eq_ok ?_ ?_).trans
        (congrArg Except.ok (hsecret first List.mem_cons_self))
      · intro share hshare
        rw [hsecret share hshare, hsecret first List.mem_cons_self]
      · rw [Sharks.Coordinates.points, List.toFinset_card_of_nodup hnodup, List.length_map]
        exact hlength

/-- After whatever was submitted to an initialised vault, its genuine shares,
submitted twice over, open it exactly if no pending share has another length. -/
theorem unseals_iff (p : Primitives) (x : p.sharks.Coordinates) (hrecovers : p.sharks.Recovers x)
    (hfree : CollisionFree p) (htotal : ∀ k, ∃ check, checkValue p k = .ok check)
    (start inner before : SealInner) (shares threshold : UInt8) (drawn : InitDraw)
    (result : InitResult) (m : SealMaterial)
    (hinit : init p start shares threshold drawn = .ok (inner, result, m))
    (earlier genuine : List String)
    (hbefore : before = run (step p m) inner (earlier.map .unsealShare))
    (hgenuine : genuine ⊆ result.shares) (hdistinct : genuine.Nodup)
    (hlength : genuine.length = threshold.toNat)
    (hroom : before.pending.length + threshold.toNat < 256) :
    isUnsealed (run (step p m) before ((genuine ++ genuine).map .unsealShare)) = true ↔
      ∀ raw ∈ before.pending, raw.length = 33 := by
  obtain ⟨hthreshold, rfl, hgenerate⟩ := init_eq_ok hinit
  obtain ⟨rootKey, unsealKey, -, hkeeps, rfl, -, hshares⟩ := generate_eq_ok hgenerate
  have h : Setting p x m unsealKey rootKey := ⟨hrecovers, hkeeps, htotal, hfree, hthreshold⟩
  have hi : Attempted p m before := hbefore ▸ (attempted_load h start).run h earlier
  obtain ⟨raws, rfl, hnodup, hraws⟩ := exists_dealt hdistinct (hshares ▸ hgenuine)
  rw [List.length_map] at hlength
  rw [← List.map_append]
  change (submitAll p m before (raws ++ raws)).rootKey.isSome = true ↔ _
  constructor
  · intro hopen bad hbad
    by_contra hlen
    have hsealed : before.rootKey = none := by
      cases hroot : before.rootKey with
      | none => rfl
      | some key =>
        rw [hi.opened (by rw [hroot]; rfl)] at hbad
        cases hbad
    have hwedged := submitAll_wedged h hi hsealed hbad hlen
      fun raw hraw => hraws raw ((List.mem_append.mp hraw).elim id id)
    rw [hwedged] at hopen
    cases hopen
  · exact submitAll_twice h hi hraws hnodup hlength hroom

/-- A wrong share of the right length is dropped with the first round. -/
theorem unseals_after_wrong_share :
    ∃ inner result m before, init .indexed new 3 2 sampleDraw = .ok (inner, result, m) ∧
      before = run (step .indexed m) inner [.unsealShare (Base64.encode (List.replicate 33 9))] ∧
      before.pending ≠ [] ∧ (isUnsealed (run (step .indexed m) before
          ((result.shares.take 2 ++ result.shares.take 2).map .unsealShare)) = true ↔
        ∀ raw ∈ before.pending, raw.length = 33) := by
  refine ⟨_, _, _, _, rfl, rfl, by decide +kernel, ?_⟩
  exact unseals_iff .indexed coordinates recovers_indexed collisionFree_indexed
    (fun k => ⟨_, rfl⟩) new _ _ 3 2 sampleDraw _ _ rfl [Base64.encode (List.replicate 33 9)] _ rfl
    (List.take_subset 2 _) (by decide +kernel) (by decide +kernel) (by decide +kernel)

/-- A share of two bytes that anyone may submit keeps the vault sealed against
its own shares. -/
theorem short_share_wedges :
    ∃ inner result m, init .indexed new 3 2 sampleDraw = .ok (inner, result, m) ∧
      (result.shares.take 2).Nodup ∧ (result.shares.take 2).length = 2 ∧
      isUnsealed (run (step .indexed m) inner
        (("AAE=" :: result.shares.take 2 ++ result.shares.take 2).map .unsealShare)) = false := by
  refine ⟨_, _, _, rfl, ?_, ?_, ?_⟩
  · decide +kernel
  · decide +kernel
  · decide +kernel

theorem run_of_unsealed {inner : SealInner} (hm : inner.material = some m)
    (hopen : inner.rootKey.isSome = true) (texts : List String) :
    run (step p m) inner (texts.map .unsealShare) = inner := by
  induction texts with
  | nil => rfl
  | cons text texts ih =>
    rw [List.map_cons, run, step_unsealShare p m hm, afterShare_of_unsealed hopen, ih]

/-- Whatever calls were made before, once the progress is dropped enough genuine shares give
the root key of the initialisation. -/
theorem reset_shares_open {x : p.sharks.Coordinates} (hrecovers : p.sharks.Recovers x)
    (hfree : CollisionFree p)
    (htotal : ∀ k, ∃ check, checkValue p k = .ok check) (start : SealInner)
    (shares threshold : UInt8) {drawn : InitDraw} {inner : SealInner} {result : InitResult}
    (hinit : init p start shares threshold drawn = .ok (inner, result, m)) {genuine : List String}
    (hgenuine : genuine ⊆ result.shares) (hdistinct : genuine.Nodup)
    (hlength : genuine.length = threshold.toNat) (calls : List Call) {last : Call}
    (hlast : ∀ text, last ≠ .unsealShare text) :
    (run (step p m) inner (calls ++ last :: genuine.map .unsealShare)).rootKey =
      drawn.rootKey := by
  obtain ⟨hthreshold, rfl, hgenerate⟩ := init_eq_ok hinit
  obtain ⟨root, unsealKey, hroot, hkeeps, -⟩ := generate_eq_ok hgenerate
  have htrail := trail_run hfree hkeeps (calls ++ [last])
  have hempty : (run (step p m) (load new m) (calls ++ [last])).pending = [] := by
    rw [run_concat]
    cases last with
    | unsealShare text => exact absurd rfl (hlast text)
    | _ => rfl
  rw [← List.singleton_append, ← List.append_assoc, run_append]
  change (run (step p m) (run (step p m) (load new m) (calls ++ [last])) _).rootKey = _
  generalize run (step p m) (load new m) (calls ++ [last]) = after at htrail hempty ⊢
  cases hopen : after.rootKey with
  | some key =>
    rw [run_of_unsealed htrail.material (by rw [hopen]; rfl), hopen, (htrail.root key hopen).1,
      hroot]
  | none =>
    obtain rfl : after = load new m := by
      obtain ⟨_, _, _⟩ := after
      cases htrail.material
      cases hopen
      cases hempty
      rfl
    exact shares_open hrecovers hfree htotal hgenerate hthreshold hgenuine hdistinct hlength

theorem reset_shares_open_after_short_share :
    ∃ inner result m, init .indexed new 3 2 sampleDraw = .ok (inner, result, m) ∧
      (run (step .indexed m) inner (.unsealShare "AAE=" :: .resetUnsealProgress ::
        (result.shares.take 2).map .unsealShare)).rootKey = sampleDraw.rootKey :=
  ⟨_, _, _, rfl, reset_shares_open recovers_indexed collisionFree_indexed (fun _ => ⟨_, rfl⟩) new
    3 2 rfl (List.take_subset 2 _) (by decide +kernel) (by decide +kernel) [.unsealShare "AAE="]
    fun _ h => by cases h⟩

end Seal

end WslVault.Core
