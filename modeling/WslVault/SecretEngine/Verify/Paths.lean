import WslVault.SecretEngine.Path

/-!
# The normal form of a path

What `normalize_and_validate` lets through, as the sequence of segments that it is.
-/

namespace WslVault.SecretEngine

open Base Core

def Segment (s : String) : Prop :=
  s ≠ "" ∧ s ≠ ".." ∧ ∀ c ∈ s.toList, permitted c = true ∧ c ≠ '/'

def segments (raw : String) : List String := Text.split '/' (Text.trimMatches '/' raw)

variable {raw path : String}

theorem checkSegments_eq_ok {segs : List String} {u : Unit} :
    checkSegments raw segs = .ok u ↔ ∀ s ∈ segs, s ≠ "" ∧ s ≠ ".." := by
  induction segs with
  | nil => simp [checkSegments]
  | cons s segs ih =>
    rw [checkSegments, List.forall_mem_cons, ← ih]
    split_ifs with hempty hdots <;> simp [*]

theorem validatePath_eq_ok {u : Unit} :
    validatePath path = .ok u ↔ ∀ c ∈ path.toList, permitted c = true := by
  unfold validatePath
  split
  · next h => simpa using List.find?_eq_none.mp h
  · next ch h =>
    refine iff_of_false nofun fun hall => ?_
    have := List.find?_some h
    simp [hall ch (List.mem_of_find?_eq_some h)] at this

theorem normalizeAndValidate_eq_ok : normalizeAndValidate raw = .ok path ↔
    path = Text.trimMatches '/' raw ∧ ∀ s ∈ segments raw, Segment s := by
  have hjoin := Text.intercalate_split '/' (Text.trimMatches '/' raw)
  have hpermitted := @Text.forall_intercalate '/' (segments raw) permitted rfl
  rw [segments, hjoin] at hpermitted
  have hsep : ∀ s ∈ segments raw, ∀ c ∈ s.toList, c ≠ '/' := by
    intro s hs c hc heq
    obtain ⟨piece, hpiece, rfl⟩ := List.mem_map.mp hs
    rw [String.toList_ofList] at hc
    exact Text.sep_notMem_splitChars piece hpiece (heq ▸ hc)
  have hne : (∀ s ∈ segments raw, s ≠ "") → Text.trimMatches '/' raw ≠ "" := by
    intro h hempty
    exact h "" (by rw [segments, hempty]; decide) rfl
  simp only [normalizeAndValidate, normalizePath, bind_eq_ok, pure_eq_ok, refuseIf_eq_ok,
    checkSegments_eq_ok, validatePath_eq_ok]
  constructor
  · rintro ⟨-, ⟨-, -, -, hsegs, rfl⟩, -, hchars, rfl⟩
    exact ⟨rfl, fun s hs => ⟨(hsegs s hs).1, (hsegs s hs).2, fun c hc =>
      ⟨hpermitted.mp hchars s hs c hc, hsep s hs c hc⟩⟩⟩
  · rintro ⟨rfl, h⟩
    exact ⟨_, ⟨(), hne fun s hs => (h s hs).1, (), fun s hs => ⟨(h s hs).1, (h s hs).2.1⟩, rfl⟩, (),
      hpermitted.mpr fun s hs c hc => ((h s hs).2.2 c hc).1, rfl⟩

theorem segments_of_join {segs : List String} (hne : segs ≠ []) (hsegs : ∀ s ∈ segs, Segment s)
    (h : Text.trimMatches '/' raw = "/".intercalate segs) : segments raw = segs := by
  rw [segments, h]
  exact Text.split_intercalate hne fun s hs hc => ((hsegs s hs).2.2 _ hc).2 rfl

theorem segments_ne_nil : segments raw ≠ [] := by
  rw [segments, Text.split, Text.splitChars_eq]
  simp [List.splitOn, List.splitOnP_ne_nil]

/-- A path is let through exactly if it is made of segments, in the form of those segments joined,
which is let through as it is and which only the same segments have. -/
theorem path_normal_form (raw : String) :
    (∀ path, normalizeAndValidate raw = .ok path ↔ ∃ segs ≠ [], (∀ s ∈ segs, Segment s) ∧
      Text.trimMatches '/' raw = "/".intercalate segs ∧ path = "/".intercalate segs) ∧
    (∀ path, normalizeAndValidate raw = .ok path → normalizeAndValidate path = .ok path) ∧
    ∀ raw' path path', normalizeAndValidate raw = .ok path → normalizeAndValidate raw' = .ok path' →
      (path = path' ↔ segments raw = segments raw') := by
  refine ⟨fun path => ?_, fun path h => ?_, fun raw' path path' h h' => ?_⟩
  · have hjoin := Text.intercalate_split '/' (Text.trimMatches '/' raw)
    rw [normalizeAndValidate_eq_ok]
    constructor
    · rintro ⟨rfl, hsegs⟩
      exact ⟨segments raw, segments_ne_nil, hsegs, hjoin.symm, hjoin.symm⟩
    · rintro ⟨segs, hne, hsegs, htrim, rfl⟩
      refine ⟨htrim.symm, ?_⟩
      rwa [segments_of_join hne hsegs htrim]
  · rw [normalizeAndValidate_eq_ok] at h ⊢
    obtain ⟨rfl, hsegs⟩ := h
    have htrim := Text.trimMatches_trimMatches '/' raw
    refine ⟨htrim.symm, ?_⟩
    rwa [segments, htrim]
  · obtain ⟨rfl, -⟩ := normalizeAndValidate_eq_ok.mp h
    obtain ⟨rfl, -⟩ := normalizeAndValidate_eq_ok.mp h'
    refine ⟨fun heq => by rw [segments, heq, segments], fun hsegs => ?_⟩
    rw [← Text.intercalate_split '/' (Text.trimMatches '/' raw),
      ← Text.intercalate_split '/' (Text.trimMatches '/' raw')]
    exact congrArg _ hsegs

end WslVault.SecretEngine
