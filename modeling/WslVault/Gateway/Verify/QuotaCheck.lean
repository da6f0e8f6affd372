import WslVault.Base.Run
import WslVault.Gateway.QuotaCheck

/-!
# What the rate limit lets through

A bucket is worth the tokens that a request would find in it (`available`): a request that
passes takes one, and at most `rate` of them a second come in, also when entries expire.
-/

namespace WslVault.Gateway

open Base

variable {rate now stop : ℚ} {dict : Option Bucket} {b : Bucket}

def available (rate : ℚ) (dict : Option Bucket) (now : ℚ) : ℚ :=
  match getBucket dict now with
  | none => rate * burstRatio
  | some b => min (b.tokens + (now - b.lastTs) * rate) (rate * burstRatio)

theorem available_le_cap (rate : ℚ) (dict : Option Bucket) (now : ℚ) :
    available rate dict now ≤ rate * burstRatio := by
  unfold available
  split
  · exact le_rfl
  · exact min_le_right _ _

/-- The tokens are not negative and were counted before. -/
def Sound (now : ℚ) (dict : Option Bucket) : Prop := ∀ b ∈ dict, 0 ≤ b.tokens ∧ b.lastTs ≤ now

/-- How many requests of a span pass, after those before it. -/
def passed (rate : ℚ) (before span : List ℚ) : Nat :=
  (trace (tokenBucketCheck rate) (run (tokenBucketCheck rate) none before) span).countP
    (·.2.allowed)

section Rate

variable (hrate : 1 ≤ rate)

include hrate

theorem one_le_cap : 1 ≤ rate * burstRatio := by
  unfold burstRatio
  linarith

theorem available_le (hb : 0 ≤ b.tokens) (now : ℚ) :
    available rate (some b) now ≤ b.tokens + (now - b.lastTs) * rate := by
  unfold available
  split
  · next hnone =>
    -- after a minute the bucket is full
    have hlong : 60 + b.lastTs < now := by simpa [getBucket, Option.filter_some] using hnone
    unfold burstRatio
    nlinarith
  · next b' hget =>
    obtain rfl : b = b' := Option.some.inj (Option.filter_eq_some_iff.mp hget).1
    exact min_le_left _ _

/-- A request leaves what was available, less the token it takes. -/
theorem tokenBucketCheck_spec (hdict : Sound now dict) :
    ∃ left, 0 ≤ left ∧ (tokenBucketCheck rate dict now).1 = some ⟨left, now⟩ ∧
      (tokenBucketCheck rate dict now).2.remaining = left ∧ available rate dict now =
        left + if (tokenBucketCheck rate dict now).2.allowed then 1 else 0 := by
  have hcap := one_le_cap hrate
  unfold available tokenBucketCheck
  cases hget : getBucket dict now with
  | none => exact ⟨_, by linarith, rfl, rfl, by simp⟩
  | some b =>
    obtain ⟨htokens, hts⟩ := hdict b (Option.filter_eq_some_iff.mp hget).1
    have hnonneg : 0 ≤ min (b.tokens + (now - b.lastTs) * rate) (rate * burstRatio) :=
      le_min (by nlinarith) (by linarith)
    dsimp only
    split
    · exact ⟨_, hnonneg, rfl, rfl, by simp⟩
    · next hone => exact ⟨_, by linarith [not_lt.mp hone], rfl, rfl, by simp⟩

theorem sound_next (hdict : Sound now dict) {next : ℚ} (hnext : now ≤ next) :
    Sound next (tokenBucketCheck rate dict now).1 := by
  obtain ⟨left, hleft, hstate, -, -⟩ := tokenBucketCheck_spec hrate hdict
  rw [hstate]
  rintro _ ⟨⟩
  exact ⟨hleft, hnext⟩

/-- From a request on, no more pass than it finds tokens and come in until the end. -/
theorem countP_trace_le {times : List ℚ} (htimes : (now :: times).Pairwise (· ≤ ·))
    (hdict : Sound now dict) (hstop : ∀ t ∈ now :: times, t ≤ stop) :
    ((trace (tokenBucketCheck rate) dict (now :: times)).countP (·.2.allowed) : ℚ) ≤
      available rate dict now + (stop - now) * rate := by
  induction times generalizing now dict with
  | nil =>
    obtain ⟨left, hleft, -, -, havailable⟩ := tokenBucketCheck_spec hrate hdict
    have hnow := hstop now List.mem_cons_self
    rw [trace, trace, List.countP_cons, List.countP_nil, havailable]
    push_cast
    nlinarith
  | cons next times ih =>
    obtain ⟨hlater, htimes⟩ := List.pairwise_cons.mp htimes
    have hnext := hlater next List.mem_cons_self
    obtain ⟨left, hleft, hstate, -, havailable⟩ := tokenBucketCheck_spec hrate hdict
    have hgain := available_le hrate (b := ⟨left, now⟩) hleft next
    have hrest := ih htimes (sound_next hrate hdict hnext)
      fun t ht => hstop t (List.mem_cons_of_mem _ ht)
    rw [← hstate] at hgain
    rw [trace, List.countP_cons, havailable]
    push_cast
    linarith

/-- On a clock that does not run back no bucket is overdrawn. -/
theorem sound_run {times : List ℚ} (htimes : times.Pairwise (· ≤ ·))
    (hlater : ∀ t ∈ times, t ≤ now) : Sound now (run (tokenBucketCheck rate) none times) := by
  induction times using List.reverseRecOn generalizing now with
  | nil => exact fun b hb => nomatch hb
  | append_singleton times t ih =>
    obtain ⟨hbefore, -, hle⟩ := List.pairwise_append.mp htimes
    have hlast := List.mem_singleton_self t
    rw [run_concat]
    exact sound_next hrate (ih hbefore fun t' ht' => hle t' ht' t hlast)
      (hlater t (List.mem_append_right _ hlast))

theorem allowed_after_retry (hdict : Sound now dict) :
    (tokenBucketCheck rate (tokenBucketCheck rate dict now).1 (now +
      retryAfterSeconds (tokenBucketCheck rate dict now).2.remaining rate)).2.allowed = true := by
  obtain ⟨left, hleft, hstate, hremaining, -⟩ := tokenBucketCheck_spec hrate hdict
  have hcap := one_le_cap hrate
  have hpos : ¬ rate ≤ 0 := by linarith
  rw [hstate, hremaining, retryAfterSeconds, if_neg hpos]
  have hwait : (1 - left) / rate ≤ (max 1 ⌈(1 - left) / rate⌉ : ℤ) :=
    (Int.le_ceil _).trans (Int.cast_le.mpr (le_max_right _ _))
  rw [div_le_iff₀ (by linarith)] at hwait
  unfold tokenBucketCheck
  split
  · rfl
  · next b hget =>
    obtain rfl := Option.some.inj (Option.filter_eq_some_iff.mp hget).1
    dsimp only
    rw [if_neg]
    rw [not_lt, le_min_iff]
    exact ⟨by linarith, hcap⟩

/-- In `T` seconds at most `1.1 * rate + rate * T` requests pass, and one that comes alone
after the `Retry-After` of a refusal does. -/
theorem rate_limit_bound {before span : List ℚ} (htimes : (before ++ span).Pairwise (· ≤ ·)) :
    (∀ start T : ℚ, 0 ≤ T → (∀ t ∈ span, start ≤ t ∧ t ≤ start + T) →
      ((trace (tokenBucketCheck rate) (run (tokenBucketCheck rate) none before) span).countP
        (·.2.allowed) : ℚ) ≤ 11 / 10 * rate + rate * T) ∧
    ∀ now, (∀ t ∈ before ++ span, t ≤ now) →
      let refusal := tokenBucketCheck rate
        (run (tokenBucketCheck rate) none (before ++ span)) now
      refusal.2.allowed = false → (tokenBucketCheck rate refusal.1
        (now + retryAfterSeconds refusal.2.remaining rate)).2.allowed = true := by
  constructor
  · intro start T hT hspan
    cases span with
    | nil =>
      simp only [trace, List.countP_nil, Nat.cast_zero]
      nlinarith
    | cons now span =>
      obtain ⟨hbefore, hafter, hle⟩ := List.pairwise_append.mp htimes
      have hsound := sound_run hrate hbefore fun t ht => hle t ht now List.mem_cons_self
      have hcount := countP_trace_le hrate hafter hsound fun t ht => (hspan t ht).2
      have hcap := available_le_cap rate (run (tokenBucketCheck rate) none before) now
      have hstart := (hspan now List.mem_cons_self).1
      unfold burstRatio at hcap
      nlinarith
  · intro now hlater _ _
    exact allowed_after_retry hrate (sound_run hrate htimes hlater)

theorem allowed_iff :
    (tokenBucketCheck rate dict now).2.allowed = true ↔ 1 ≤ available rate dict now := by
  have hcap := one_le_cap hrate
  unfold available tokenBucketCheck
  cases getBucket dict now with
  | none => simp [hcap]
  | some b =>
    dsimp only
    split
    · next hfew => exact iff_of_false Bool.false_ne_true (not_le.mpr hfew)
    · next hone => exact iff_of_true rfl (not_lt.mp hone)

/-- The bucket is full, or empty by what has passed since an earlier request. -/
theorem available_run {times : List ℚ} (htimes : times.Pairwise (· ≤ ·))
    (hlater : ∀ t ∈ times, t ≤ now) :
    let left := available rate (run (tokenBucketCheck rate) none times) now
    left = rate * burstRatio ∨ ∃ before t after, times = before ++ t :: after ∧
      left + passed rate before (t :: after) = rate * burstRatio + (now - t) * rate := by
  induction times using List.reverseRecOn generalizing now with
  | nil => exact .inl rfl
  | append_singleton times last ih =>
    obtain ⟨hbefore, -, hle⟩ := List.pairwise_append.mp htimes
    have hlast : ∀ t ∈ times, t ≤ last := fun t ht => hle t ht last (List.mem_singleton_self last)
    obtain ⟨left, -, hstate, -, havailable⟩ :=
      tokenBucketCheck_spec hrate (sound_run hrate hbefore hlast)
    rw [run_concat, hstate]
    unfold available
    split
    · exact .inl rfl
    next b hget =>
    obtain rfl := Option.some.inj (Option.filter_eq_some_iff.mp hget).1
    rcases min_choice (left + (now - last) * rate) (rate * burstRatio) with hmin | hmin
    · right
      dsimp only
      rw [hmin]
      rcases ih hbefore hlast with hfull | ⟨before, t, after, rfl, hleft⟩
      · refine ⟨times, last, [], rfl, ?_⟩
        rw [passed, trace, trace, List.countP_cons, List.countP_nil]
        push_cast
        linarith
      · refine ⟨before, t, after ++ [last], by simp, ?_⟩
        rw [passed, ← List.cons_append, trace_concat, ← run_append, List.countP_append,
          List.countP_singleton]
        unfold passed at hleft
        push_cast
        linarith
    · exact .inl hmin

/-- A request is refused exactly if with it too many would have passed since an earlier one. -/
theorem refused_iff_exceeds {times : List ℚ} (htimes : (times ++ [now]).Pairwise (· ≤ ·)) :
    (tokenBucketCheck rate (run (tokenBucketCheck rate) none times) now).2.allowed = false ↔
      ∃ before t after, times = before ++ t :: after ∧
        11 / 10 * rate + rate * (now - t) < passed rate before (t :: after) + 1 := by
  obtain ⟨hbefore, -, hle⟩ := List.pairwise_append.mp htimes
  have hlater : ∀ t ∈ times, t ≤ now := fun t ht => hle t ht now (List.mem_singleton_self now)
  rw [← Bool.not_eq_true, allowed_iff hrate, not_le]
  constructor
  · intro hfew
    rcases available_run hrate hbefore hlater with hfull | ⟨before, t, after, hsplit, hleft⟩
    · exact absurd hfew (not_lt.mpr (hfull ▸ one_le_cap hrate))
    · unfold burstRatio at hleft
      exact ⟨before, t, after, hsplit, by linarith⟩
  · rintro ⟨before, t, after, rfl, hexceeds⟩
    by_contra hallowed
    rw [not_lt, ← allowed_iff hrate] at hallowed
    rw [List.append_assoc, List.cons_append] at htimes
    obtain ⟨hbefore, hspan, hle⟩ := List.pairwise_append.mp htimes
    have hsound := sound_run hrate hbefore fun t' ht' => hle t' ht' t List.mem_cons_self
    have hstop : ∀ t' ∈ t :: (after ++ [now]), t' ≤ now := by
      simp only [List.mem_append, List.mem_cons] at hlater ⊢
      grind
    have hcount := countP_trace_le hrate hspan hsound hstop
    have hcap := available_le_cap rate (run (tokenBucketCheck rate) none before) t
    rw [← List.cons_append, trace_concat, ← run_append, List.countP_append, List.countP_singleton,
      if_pos hallowed] at hcount
    unfold burstRatio at hcap
    unfold passed at hexceeds
    push_cast at hcount
    linarith

end Rate

theorem refused_iff_exceeds_at_once :
    (tokenBucketCheck 1 (run (tokenBucketCheck 1) none [0]) (1 / 2)).2.allowed = false :=
  (refused_iff_exceeds le_rfl (by simp)).mpr ⟨[], 0, [], rfl, by decide +kernel⟩

theorem rate_limit_bound_refusal :
    (tokenBucketCheck 1 (run (tokenBucketCheck 1) none [0]) (1 / 2)).2.allowed = false ∧
      (tokenBucketCheck 1 (tokenBucketCheck 1 (run (tokenBucketCheck 1) none [0]) (1 / 2)).1
        (1 / 2 + retryAfterSeconds (tokenBucketCheck 1 (run (tokenBucketCheck 1) none [0])
          (1 / 2)).2.remaining 1)).2.allowed = true := by
  have hrefused : (tokenBucketCheck 1 (run (tokenBucketCheck 1) none [0]) (1 / 2)).2.allowed =
      false := by decide +kernel
  have hbound := @rate_limit_bound 1 le_rfl [0] [] (by simp)
  exact ⟨hrefused, hbound.2 (1 / 2) (by simp) hrefused⟩

end WslVault.Gateway
