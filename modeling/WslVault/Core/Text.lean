import Mathlib.Data.List.Basic
import Mathlib.Data.List.TakeWhile

/-!
# String operations of the Rust standard library

The services cut request strings with `str::split`, `str::split_once` and
`str::trim`. They are modelled on the characters of the string; `trim` strips
the code points of the Unicode `White_Space` property, as Rust's does.
-/

namespace WslVault.Core.Text

/-- `char::is_whitespace`: the Unicode `White_Space` property. -/
def isWhitespace (c : Char) : Bool :=
  let n := c.toNat
  (9 ≤ n && n ≤ 13) || n == 0x20 || n == 0x85 || n == 0xA0 || n == 0x1680 ||
    (0x2000 ≤ n && n ≤ 0x200A) || n == 0x2028 || n == 0x2029 || n == 0x202F ||
    n == 0x205F || n == 0x3000

variable {a : String} {c : Char}

theorem getElem?_append {k : Nat} (h : a.toList[k]? = some c)
    (s : String) : (a ++ s).toList[k]? = some c := by
  obtain ⟨hk, -⟩ := List.getElem?_eq_some_iff.mp h
  rw [String.toList_append, List.getElem?_append_left hk, h]

def trim (s : String) : String :=
  String.ofList ((s.toList.dropWhile isWhitespace).reverse.dropWhile isWhitespace).reverse

variable {s : String}

theorem trim_ne_empty (hc : c ∈ s.toList) (h : isWhitespace c = false) :
    trim s ≠ "" := by
  intro htrim
  have hchars :
      ((s.toList.dropWhile isWhitespace).reverse.dropWhile isWhitespace).reverse = [] := by
    simpa [trim] using congrArg String.toList htrim
  rw [List.reverse_eq_nil_iff, List.dropWhile_eq_nil_iff] at hchars
  have hspace : isWhitespace c = true := by
    rw [← List.takeWhile_append_dropWhile (p := isWhitespace) (l := s.toList)] at hc
    rcases List.mem_append.mp hc with hc | hc
    · exact List.mem_takeWhile_imp hc
    · exact hchars c (List.mem_reverse.mpr hc)
  rw [h] at hspace
  cases hspace

theorem trim_of_no_space (h : ∀ c ∈ s.toList, isWhitespace c = false) :
    trim s = s := by
  have hkeep : ∀ cs : List Char, (∀ c ∈ cs, isWhitespace c = false) →
      cs.dropWhile isWhitespace = cs := by
    intro cs hcs
    cases cs with
    | nil => rfl
    | cons c cs => exact List.dropWhile_cons_of_neg (by simp [hcs c List.mem_cons_self])
  rw [trim, hkeep _ h, hkeep _ (fun c hc => h c (List.mem_reverse.mp hc)), List.reverse_reverse,
    String.ofList_toList]

def trimMatches (sep : Char) (s : String) : String :=
  String.ofList ((s.toList.dropWhile (· == sep)).reverse.dropWhile (· == sep)).reverse

variable {sep : Char}

theorem mem_trimMatches (hne : c ≠ sep) (hc : c ∈ s.toList) :
    c ∈ (trimMatches sep s).toList := by
  have hdrop : ∀ {l : List Char}, c ∈ l → c ∈ l.dropWhile (· == sep) := by
    intro l hl
    rw [← List.takeWhile_append_dropWhile (p := (· == sep)) (l := l)] at hl
    refine (List.mem_append.mp hl).resolve_left fun htake => ?_
    exact hne (by simpa using List.mem_takeWhile_imp htake)
  rw [trimMatches, String.toList_ofList, List.mem_reverse]
  exact hdrop (List.mem_reverse.mpr (hdrop hc))

theorem trimMatches_trimMatches (sep : Char) (s : String) :
    trimMatches sep (trimMatches sep s) = trimMatches sep s := by
  have hfront := List.reverse_prefix.mpr
    (List.dropWhile_suffix (l := (s.toList.dropWhile (· == sep)).reverse) (· == sep))
  rw [List.reverse_reverse] at hfront
  have hstays : (trimMatches sep s).toList.dropWhile (· == sep) = (trimMatches sep s).toList := by
    rw [trimMatches, String.toList_ofList, List.dropWhile_eq_self_iff]
    intro hpos
    rw [hfront.getElem hpos]
    exact List.dropWhile_get_zero_not (· == sep) _ (hpos.trans_le hfront.length_le)
  rw [trimMatches, hstays, trimMatches, String.toList_ofList, List.reverse_reverse,
    List.dropWhile_eq_self_iff.mpr (List.dropWhile_get_zero_not (· == sep) _)]

def trimEndMatches (sep : Char) (s : String) : String :=
  String.ofList (s.toList.reverse.dropWhile (· == sep)).reverse

def splitChars (sep : Char) : List Char → List (List Char)
  | [] => [[]]
  | c :: cs =>
    if c = sep then [] :: splitChars sep cs
    else
      match splitChars sep cs with
      | [] => [[c]]
      | piece :: pieces => (c :: piece) :: pieces

def split (sep : Char) (s : String) : List String :=
  (splitChars sep s.toList).map String.ofList

variable {cs : List Char} {ts : List String}

theorem splitChars_eq (sep : Char) (cs : List Char) : splitChars sep cs = cs.splitOn sep := by
  induction cs with
  | nil => rfl
  | cons c cs ih =>
    rw [splitChars, ih, List.splitOn, List.splitOn, List.splitOnP_cons_eq_if_modifyHead]
    simp only [beq_iff_eq]
    split
    · rfl
    · cases h : cs.splitOnP (· == sep) with
      | nil => exact absurd h (List.splitOnP_ne_nil _ _)
      | cons piece pieces => rfl

theorem sep_notMem_splitChars : ∀ piece ∈ splitChars sep cs, sep ∉ piece := by
  induction cs with
  | nil => simp [splitChars]
  | cons c cs ih =>
    rw [splitChars]
    split
    · simpa using ih
    · next hc =>
      cases h : splitChars sep cs with
      | nil => simp [Ne.symm hc]
      | cons first pieces =>
        rw [h, List.forall_mem_cons] at ih
        exact List.forall_mem_cons.mpr ⟨by simp [Ne.symm hc, ih.1], ih.2⟩

theorem split_intercalate (hne : ts ≠ []) (h : ∀ t ∈ ts, sep ∉ t.toList) :
    split sep (String.intercalate (String.singleton sep) ts) = ts := by
  rw [split, splitChars_eq, String.toList_intercalate, String.toList_singleton,
    List.splitOn_intercalate sep (by simpa using h) (by simpa using hne)]
  simp

theorem intercalate_split (sep : Char) (s : String) :
    String.intercalate (String.singleton sep) (split sep s) = s := by
  refine String.toList_injective ?_
  rw [String.toList_intercalate, split, splitChars_eq, List.map_map]
  simp [List.intercalate_splitOn]

theorem forall_intercalate {p : Char → Bool} (hsep : p sep = true) :
    (∀ c ∈ (String.intercalate (String.singleton sep) ts).toList, p c = true) ↔
      ∀ t ∈ ts, ∀ c ∈ t.toList, p c = true := by
  induction ts with
  | nil => simp
  | cons t ts ih =>
    cases ts with
    | nil => simp
    | cons u ts =>
      rw [String.intercalate_cons_cons, List.forall_mem_cons, ← ih]
      simp [or_imp, forall_and, hsep]

/-- `str::split_once`: the text before and after the first `sep`. -/
def splitOnce (sep : Char) (s : String) : Option (String × String) :=
  match s.toList.dropWhile (· ≠ sep) with
  | [] => none
  | _ :: after => some (String.ofList (s.toList.takeWhile (· ≠ sep)), String.ofList after)

variable {b r : String} {n : Nat}

theorem splitOnce_join (h : sep ∉ a.toList) :
    splitOnce sep (a ++ String.singleton sep ++ b) = some (a, b) := by
  have hne : ∀ c ∈ a.toList, decide (c ≠ sep) = true :=
    fun c hc => decide_eq_true fun heq => h (heq ▸ hc)
  have hchars : (a ++ String.singleton sep ++ b).toList = a.toList ++ sep :: b.toList := by simp
  rw [splitOnce, hchars, List.dropWhile_append_of_pos hne, List.takeWhile_append_of_pos hne]
  simp

/-- Texts with equally many separators in front of one end at the same one. -/
theorem append_sep_inj (hcount : a.toList.count sep = b.toList.count sep) :
    a ++ String.singleton sep ++ r = b ++ String.singleton sep ++ s ↔ a = b ∧ r = s := by
  have hlists : ∀ as bs rs ss : List Char, as.count sep = bs.count sep →
      as ++ sep :: rs = bs ++ sep :: ss → as = bs ∧ rs = ss := by
    intro as
    induction as with
    | nil =>
      intro bs rs ss hcount h
      cases bs with
      | nil => exact ⟨rfl, (List.cons.inj h).2⟩
      | cons x bs =>
        -- the separator after the first text would be a character of the second
        rw [← (List.cons.inj h).1, List.count_nil, List.count_cons_self] at hcount
        cases hcount
    | cons x as ih =>
      intro bs rs ss hcount h
      cases bs with
      | nil =>
        rw [(List.cons.inj h).1, List.count_nil, List.count_cons_self] at hcount
        cases hcount
      | cons y bs =>
        obtain ⟨rfl, htail⟩ := List.cons.inj h
        simp only [List.count_cons, Nat.add_right_cancel_iff] at hcount
        obtain ⟨rfl, rfl⟩ := ih bs rs ss hcount htail
        exact ⟨rfl, rfl⟩
  refine ⟨fun h => ?_, fun h => by rw [h.1, h.2]⟩
  have hchars := hlists a.toList b.toList r.toList s.toList hcount
    (by simpa using congrArg String.toList h)
  exact hchars.imp String.toList_inj.mp String.toList_inj.mp

/-- Texts without a separator are told apart by what is in front of the last one. -/
theorem append_sep_inj_of_notMem (hr : sep ∉ r.toList) (hs : sep ∉ s.toList) :
    a ++ String.singleton sep ++ r = b ++ String.singleton sep ++ s ↔ a = b ∧ r = s := by
  refine ⟨fun h => ?_, fun h => by rw [h.1, h.2]⟩
  have hcount := congrArg (List.count sep ∘ String.toList) h
  simp [List.count_append, List.count_eq_zero.mpr hr, List.count_eq_zero.mpr hs] at hcount
  exact (append_sep_inj hcount).mp h

def contains (s part : String) : Bool :=
  s.toList.tails.any fun rest => part.toList.isPrefixOf rest

def stripStart (start s : String) : Option String :=
  if start.toList.isPrefixOf s.toList then some (String.ofList (s.toList.drop start.toList.length))
  else none

/-- A text with `new` for every occurrence of `old`. The number counts the
characters of the last occurrence that are still to be passed over. -/
def replaceChars (old new : List Char) : Nat → List Char → List Char
  | _, [] => []
  | skip + 1, _ :: cs => replaceChars old new skip cs
  | 0, c :: cs =>
    if old.isPrefixOf (c :: cs) then new ++ replaceChars old new (old.length - 1) cs
    else c :: replaceChars old new 0 cs

def replace (old new s : String) : String :=
  String.ofList (replaceChars old.toList new.toList 0 s.toList)

def toAsciiLowercase (s : String) : String := String.ofList (s.toList.map Char.toLower)

/-- The upper case of a character, as far as it is ASCII. Besides the Latin
letters, the dotless i, the long s and two ligatures have one; no other
character's upper case has only ASCII in it. -/
def upperChar (c : Char) : List Char :=
  if c = 'ı' then ['I']
  else if c = 'ſ' then ['S']
  else if c = 'ﬅ' || c = 'ﬆ' then ['S', 'T']
  else [c.toUpper]

/-- `str::to_uppercase`, for comparison with the ASCII texts of the services. -/
def toUppercase (s : String) : String := String.ofList (s.toList.flatMap upperChar)

/-- The lower case of a character, as far as it is ASCII. Besides the Latin
letters, the Kelvin sign has one; no other character's lower case has only ASCII
in it. -/
def lowerChar (c : Char) : Char := if c = '\u212A' then 'k' else c.toLower

/-- `str::to_lowercase`, for comparison with the ASCII texts of the services. -/
def toLowercase (s : String) : String := String.ofList (s.toList.map lowerChar)

theorem toList_toString (n : Nat) : (toString n).toList = Nat.toDigits 10 n := by
  rw [Nat.toString_eq_repr, Nat.repr_eq_ofList_toDigits, String.toList_ofList]

theorem isDigit_of_mem_toString (h : c ∈ (toString n).toList) : c.isDigit = true := by
  rw [toList_toString] at h
  exact Nat.isDigit_of_mem_toDigits (by omega) (by omega) h

theorem toString_nat_injective : Function.Injective (toString : Nat → String) := by
  intro m n h
  have hdigits := congrArg String.toList h
  rw [toList_toString, toList_toString] at hdigits
  rw [← Nat.ofDigitChars_toDigits (n := m) (b := 10) (by omega) (by omega), hdigits,
    Nat.ofDigitChars_toDigits (by omega) (by omega)]

theorem toString_int_injective : Function.Injective (toString : Int → String) := by
  -- a number does not start with the sign
  have hsign (m n : Nat) : toString m ≠ "-" ++ toString n := by
    intro h
    have hmem : '-' ∈ (toString m).toList := by simp [h]
    exact absurd (isDigit_of_mem_toString hmem) (by decide)
  intro m n h
  cases m with
  | ofNat m =>
    cases n with
    | ofNat n => rw [toString_nat_injective h]
    | negSucc n => exact absurd h (hsign m (n + 1))
  | negSucc m =>
    cases n with
    | ofNat n => exact absurd h.symm (hsign n (m + 1))
    | negSucc n =>
      have hnat : m + 1 = n + 1 := toString_nat_injective ((String.append_right_inj _).mp h)
      rw [Nat.succ_inj.mp hnat]

end WslVault.Core.Text
