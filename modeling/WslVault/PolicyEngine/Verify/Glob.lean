import WslVault.PolicyEngine.Evaluator

/-!
# What a pattern matches

Patterns and paths are lists of segments, each of which ends at a `/` or at the end of the
text. `Fits` says which paths a pattern is for, and names nothing of the matcher.
-/

namespace WslVault.PolicyEngine

/-- The segments that a segment of a pattern is for: `*` stands for any characters. -/
inductive InLanguage : List Char → List Char → Prop where
  | nil : InLanguage [] []
  | literal {c p s} (h : InLanguage p s) : InLanguage (c :: p) (c :: s)
  | star {p s} (part : List Char) (h : InLanguage p s) : InLanguage ('*' :: p) (part ++ s)

/-- A segment `**` is for any number of segments, every other one for one segment. Past its
end a path goes on with empty segments. -/
inductive Fits : List (List Char) → List (List Char) → Prop where
  | nil : Fits [] []
  | segment {p ps s ss} (hs : InLanguage p s) (h : Fits ps ss) : Fits (p :: ps) (s :: ss)
  | past {p ps} (hs : InLanguage p []) (h : Fits ps []) : Fits (p :: ps) []
  | stars {ps ss} (part : List (List Char)) (h : Fits ps ss) :
      Fits (['*', '*'] :: ps) (part ++ ss)

def segments : List Char → List (List Char)
  | [] => []
  | c :: cs =>
    if c = '/' then [] :: segments cs
    else
      match segments cs with
      | [] => [[c]]
      | s :: ss => (c :: s) :: ss

def Matches (pattern path : String) : Prop :=
  Fits (segments pattern.toList) (segments path.toList)

/-! ## Segments -/

section Segment

variable {p s : List Char}

theorem inLanguage_nil : InLanguage [] s ↔ s = [] := by
  constructor
  · rintro ⟨⟩
    rfl
  · rintro rfl
    exact .nil

theorem inLanguage_star :
    InLanguage ('*' :: p) s ↔ ∃ suffix, suffix <:+ s ∧ InLanguage p suffix := by
  constructor
  · intro h
    cases h with
    | literal h => exact ⟨_, List.suffix_cons _ _, h⟩
    | star part h => exact ⟨_, List.suffix_append _ _, h⟩
  · rintro ⟨suffix, ⟨part, rfl⟩, h⟩
    exact .star part h

theorem inLanguage_literal {c : Char} (hc : c ≠ '*') :
    InLanguage (c :: p) s ↔ ∃ rest, s = c :: rest ∧ InLanguage p rest := by
  constructor
  · intro h
    cases h with
    | literal h => exact ⟨_, rfl, h⟩
    | star => exact absurd rfl hc
  · rintro ⟨rest, rfl, h⟩
    exact .literal h

theorem inLanguage_any (s : List Char) : InLanguage ['*'] s :=
  inLanguage_star.mpr ⟨[], List.nil_suffix, .nil⟩

theorem segmentLoop_iff : segmentLoop p s = true ↔ InLanguage p s := by
  induction p generalizing s with
  | nil => rw [segmentLoop, List.isEmpty_iff, inLanguage_nil]
  | cons c rest ih =>
    rw [segmentLoop.eq_def]
    dsimp only
    split
    · next hc =>
      subst hc
      simp only [List.any_eq_true, List.mem_tails, Bool.or_eq_true, decide_eq_true_eq, ih,
        inLanguage_star]
      refine exists_congr fun suffix => and_congr_right fun _ => ?_
      exact ⟨fun h => h.elim (fun h => h ▸ inLanguage_any suffix) id, .inr⟩
    · next hc =>
      rw [inLanguage_literal hc]
      cases s with
      | nil => simp
      | cons d ds =>
        simp only [Bool.and_eq_true, beq_iff_eq, ih, List.cons.injEq, and_assoc,
          exists_and_left, exists_eq_left']

/-- Going back to the last star alone loses no match. -/
theorem segmentMatch_iff : segmentMatch p s = true ↔ InLanguage p s := by
  rw [segmentMatch, Bool.or_eq_true, decide_eq_true_eq, segmentLoop_iff]
  exact ⟨fun h => h.elim (fun h => h ▸ inLanguage_any s) id, .inr⟩

end Segment

/-! ## Paths -/

section Path

variable {path : List Char}

theorem segments_eq (h : path ≠ []) :
    segments path = (cutSegment path).1 :: segments (cutSegment path).2 := by
  induction path with
  | nil => exact absurd rfl h
  | cons c cs ih =>
    by_cases hc : c = '/'
    · simp [segments, cutSegment, hc]
    · cases cs with
      | nil => simp [segments, cutSegment, hc]
      | cons d ds =>
        rw [segments, if_neg hc, ih (List.cons_ne_nil d ds), cutSegment.eq_2 c, if_neg hc]

theorem suffix_iff {α : Type*} {b l : List α} : b <:+ l ↔ b = l ∨ b <:+ l.tail := by
  cases l with
  | nil => simp
  | cons x l => exact List.suffix_cons_iff

theorem suffix_tail_iff {b : List (List Char)} :
    b <:+ (segments path).tail ↔ ∃ t ∈ afterSlashes path, segments t = b := by
  induction path with
  | nil => simp [segments, afterSlashes, eq_comm]
  | cons c cs ih =>
    by_cases hc : c = '/'
    · rw [segments, if_pos hc, List.tail_cons, suffix_iff, ih, afterSlashes, if_pos hc]
      simp [eq_comm]
    · have htail : (segments (c :: cs)).tail = (segments cs).tail := by
        rw [segments, if_neg hc]
        cases segments cs <;> rfl
      rw [htail, ih, afterSlashes, if_neg hc]

/-- The texts that a leading `**` is tried with are those of the ends of the path. -/
theorem suffix_segments_iff {b : List (List Char)} :
    b <:+ segments path ↔ ∃ t ∈ path :: afterSlashes path, segments t = b := by
  rw [suffix_iff, suffix_tail_iff]
  simp [eq_comm]

end Path

/-! ## The matcher -/

section Matcher

variable {p : List Char} {ps segs : List (List Char)} {pattern : List Char}

theorem fits_stars : Fits (['*', '*'] :: ps) segs ↔ ∃ b, b <:+ segs ∧ Fits ps b := by
  constructor
  · intro h
    cases h with
    | segment _ h => exact ⟨_, List.suffix_cons _ _, h⟩
    | past _ h => exact ⟨_, List.suffix_rfl, h⟩
    | stars part h => exact ⟨_, List.suffix_append _ _, h⟩
  · rintro ⟨b, ⟨part, rfl⟩, h⟩
    exact .stars part h

theorem fits_segment (hp : p ≠ ['*', '*']) (path : List Char) :
    Fits (p :: ps) (segments path) ↔
      InLanguage p (cutSegment path).1 ∧ Fits ps (segments (cutSegment path).2) := by
  by_cases hpath : path = []
  · subst hpath
    refine ⟨fun h => ?_, fun h => .past h.1 h.2⟩
    generalize hsegs : segments [] = segs at h
    cases h with
    | segment => cases hsegs
    | past hs h => exact ⟨hs, h⟩
    | stars => exact absurd rfl hp
  · rw [segments_eq hpath]
    refine ⟨fun h => ?_, fun h => .segment h.1 h.2⟩
    generalize hsegs : (cutSegment path).1 :: segments (cutSegment path).2 = segs at h
    cases h with
    | segment hs h =>
      cases hsegs
      exact ⟨hs, h⟩
    | past => cases hsegs
    | stars => exact absurd rfl hp

/-- The test for a leading `**`, and the text that the matcher goes on with. -/
theorem leading_stars (pattern : List Char) :
    ((pattern.take 3 = ['*', '*', '/'] ∨ pattern = ['*', '*']) ↔
      (cutSegment pattern).1 = ['*', '*']) ∧
    ((cutSegment pattern).1 = ['*', '*'] → pattern.drop 3 = (cutSegment pattern).2) := by
  rcases pattern with _ | ⟨a, _ | ⟨b, _ | ⟨c, rest⟩⟩⟩ <;> grind [cutSegment]

theorem globMatchRecursive_segment (hp : pattern ≠ [])
    (hcut : (cutSegment pattern).1 ≠ ['*', '*']) (path : List Char) :
    globMatchRecursive pattern path = (segmentMatch (cutSegment pattern).1 (cutSegment path).1 &&
      globMatchRecursive (cutSegment pattern).2 (cutSegment path).2) := by
  conv_lhs => rw [globMatchRecursive]
  rw [dif_neg hp, if_neg (mt (leading_stars pattern).1.mp hcut)]
  cases segmentMatch (cutSegment pattern).1 (cutSegment path).1 with
  | false => rfl
  | true =>
    cases hrest : (cutSegment pattern).2 with
    | nil =>
      rw [globMatchRecursive, dif_pos rfl]
      rfl
    | cons c cs => rfl

/-- A path matches exactly if its segments fit those of the pattern. -/
theorem globMatchRecursive_iff (pattern path : List Char) :
    globMatchRecursive pattern path = true ↔ Fits (segments pattern) (segments path) := by
  by_cases hp : pattern = []
  · subst hp
    rw [globMatchRecursive, dif_pos rfl, List.isEmpty_iff]
    constructor
    · rintro rfl
      exact .nil
    · intro h
      by_contra hpath
      rw [segments_eq hpath] at h
      cases h
  have ih t := globMatchRecursive_iff (cutSegment pattern).2 t
  obtain ⟨hstars, hdrop⟩ := leading_stars pattern
  rw [segments_eq hp]
  by_cases hcut : (cutSegment pattern).1 = ['*', '*']
  · rw [globMatchRecursive, dif_neg hp, if_pos (hstars.mpr hcut), hdrop hcut, hcut, fits_stars,
      ← List.any_cons, List.any_eq_true]
    constructor
    · rintro ⟨t, ht, h⟩
      exact ⟨_, suffix_segments_iff.mpr ⟨t, ht, rfl⟩, (ih t).mp h⟩
    · rintro ⟨b, hb, h⟩
      obtain ⟨t, ht, rfl⟩ := suffix_segments_iff.mp hb
      exact ⟨t, ht, (ih t).mpr h⟩
  · rw [globMatchRecursive_segment hp hcut, Bool.and_eq_true, segmentMatch_iff, ih,
      fits_segment hcut]
  termination_by pattern.length
  decreasing_by exact cutSegment_length_lt hp

/-- The matcher finds exactly the paths that a pattern is for. -/
theorem globMatch_iff (pattern path : String) :
    globMatch pattern path = true ↔ Matches pattern path :=
  globMatchRecursive_iff pattern.toList path.toList

end Matcher

end WslVault.PolicyEngine
