import Mathlib.Algebra.Group.Nat.Defs
import Mathlib.Data.List.Basic

/-!
# UUIDs

Tenants and keys are identified by UUIDs in the database and by strings in the services.
`Uuid.parseStr` accepts what `Uuid::parse_str` of the `uuid` crate accepts, and
`Uuid.toString` is the hyphenated form in lower case. The database reads texts by rules of
its own (`Uuid.ofPg`).
-/

namespace WslVault.Core

def isHexDigit (c : Char) : Bool := ('0' ≤ c && c ≤ '9') || ('a' ≤ c && c ≤ 'f')

/-- A UUID as its 32 hex digits, in lower case. -/
structure Uuid where
  hex : List Char
  length_eq : hex.length = 32
  isHex : hex.all isHexDigit = true
  deriving DecidableEq

namespace Uuid

variable {u v : Uuid} {c : Char} {n : Nat} (cs : List Char)

theorem ext_hex (h : u.hex = v.hex) : u = v := by
  cases u
  cases v
  cases h
  rfl

def repeated (c : Char) (h : isHexDigit c = true) : Uuid where
  hex := List.replicate 32 c
  length_eq := List.length_replicate
  isHex := by simp [h]

def nil : Uuid := repeated '0' rfl

def max : Uuid := repeated 'f' rfl

/-- The digits without hyphens, of either case. -/
def parseSimple : Option Uuid :=
  if h : (cs.map Char.toLower).length = 32 ∧ (cs.map Char.toLower).all isHexDigit = true then
    some ⟨cs.map Char.toLower, h.1, h.2⟩
  else none

def dehyphenate : List Char :=
  cs.take 8 ++ (cs.drop 9).take 4 ++ (cs.drop 14).take 4 ++ (cs.drop 19).take 4 ++ cs.drop 24

def parseHyphenated : Option Uuid :=
  if cs.length = 36 ∧ cs[8]? = some '-' ∧ cs[13]? = some '-' ∧ cs[18]? = some '-' ∧
      cs[23]? = some '-' then
    parseSimple (dehyphenate cs)
  else none

def parseStr (s : String) : Option Uuid :=
  let cs := s.toList
  if cs.length = 32 then parseSimple cs
  else if cs.length = 36 then parseHyphenated cs
  else if cs.length = 38 ∧ cs.head? = some '{' ∧ cs.getLast? = some '}' then
    parseHyphenated (cs.drop 1).dropLast
  else if cs.length = 45 ∧ cs.take 9 = "urn:uuid:".toList then parseHyphenated (cs.drop 9)
  else none

/-- Groups of four digits, between which a hyphen may stand, and what follows
them. -/
def pgGroups : Nat → List Char → List Char × List Char
  | 0, cs => ([], cs)
  | n + 1, cs =>
    let after := cs.drop 4
    let rest := if n ≠ 0 && after.head? = some '-' then after.tail else after
    (cs.take 4 ++ (pgGroups n rest).1, (pgGroups n rest).2)

/-- The cast `::uuid` of PostgreSQL: 32 digits, with hyphens after any groups of
four, and braces around it or none. -/
def ofPg (s : String) : Option Uuid :=
  match s.toList with
  | '{' :: cs => if (pgGroups 8 cs).2 = ['}'] then parseSimple (pgGroups 8 cs).1 else none
  | cs => if (pgGroups 8 cs).2 = [] then parseSimple (pgGroups 8 cs).1 else none

def hyphenated (u : Uuid) : List Char :=
  u.hex.take 8 ++ '-' :: ((u.hex.drop 8).take 4 ++ '-' :: ((u.hex.drop 12).take 4 ++
    '-' :: ((u.hex.drop 16).take 4 ++ '-' :: u.hex.drop 20)))

def toString (u : Uuid) : String := String.ofList u.hyphenated

theorem hyphenated_length (u : Uuid) : u.hyphenated.length = 36 := by
  simp [hyphenated, u.length_eq]

theorem dehyphenate_groups {a b c d e : List Char} (ha : a.length = 8) (hb : b.length = 4)
    (hc : c.length = 4) (hd : d.length = 4) :
    dehyphenate (a ++ '-' :: (b ++ '-' :: (c ++ '-' :: (d ++ '-' :: e)))) =
      a ++ b ++ c ++ d ++ e := by
  simp (disch := omega) [dehyphenate, List.drop_append, ha, hb, hc, hd, List.drop_of_length_le]

theorem dehyphenate_hyphenated (u : Uuid) : dehyphenate u.hyphenated = u.hex := by
  have h := u.length_eq
  have hgroup : ∀ i, i + 4 ≤ 32 → ((u.hex.drop i).take 4).length = 4 := by
    intro i hi
    rw [List.length_take, List.length_drop, h]
    omega
  have hsplit : ∀ i, (u.hex.drop i).take 4 ++ u.hex.drop (i + 4) = u.hex.drop i := by
    intro i
    rw [← List.drop_drop, List.take_append_drop]
  rw [hyphenated, dehyphenate_groups (by simp [h]) (hgroup 8 (by omega)) (hgroup 12 (by omega))
    (hgroup 16 (by omega))]
  simp only [List.append_assoc, hsplit, List.take_append_drop]

theorem toLower_of_isHexDigit (h : isHexDigit c = true) : c.toLower = c := by
  have hupper : ¬ (c.val ≥ 'A'.val ∧ c.val ≤ 'Z'.val) := by
    simp only [isHexDigit, Bool.or_eq_true, Bool.and_eq_true, decide_eq_true_eq, Char.le_def] at h
    have h9 : '9'.val < 'A'.val := by decide
    have ha : 'Z'.val < 'a'.val := by decide
    grind
  exact dif_neg hupper

theorem parseSimple_hex (u : Uuid) : parseSimple u.hex = some u := by
  have hlower : u.hex.map Char.toLower = u.hex := by
    rw [List.map_congr_left fun c hc => toLower_of_isHexDigit (List.all_eq_true.mp u.isHex c hc)]
    exact List.map_id' u.hex
  unfold parseSimple
  rw [dif_pos (by rw [hlower]; exact ⟨u.length_eq, u.isHex⟩)]
  exact congrArg some (ext_hex hlower)

theorem parseHyphenated_hyphenated (u : Uuid) : parseHyphenated u.hyphenated = some u := by
  have hhyphens : u.hyphenated[8]? = some '-' ∧ u.hyphenated[13]? = some '-' ∧
      u.hyphenated[18]? = some '-' ∧ u.hyphenated[23]? = some '-' := by
    simp [hyphenated, u.length_eq]
  rw [parseHyphenated, if_pos ⟨u.hyphenated_length, hhyphens⟩, dehyphenate_hyphenated,
    parseSimple_hex]

theorem parseStr_toString (u : Uuid) : parseStr u.toString = some u := by
  simp [parseStr, toString, u.hyphenated_length, parseHyphenated_hyphenated]

theorem pgGroups_succ {group rest : List Char} (hgroup : group.length = 4)
    (hrest : rest.head? ≠ some '-') :
    pgGroups (n + 1) (group ++ rest) = (group ++ (pgGroups n rest).1, (pgGroups n rest).2) := by
  simp [pgGroups, ← hgroup, hrest]

theorem pgGroups_hyphen {group rest : List Char} (hgroup : group.length = 4)
    (hn : n ≠ 0) : pgGroups (n + 1) (group ++ '-' :: rest) =
      (group ++ (pgGroups n rest).1, (pgGroups n rest).2) := by
  simp [pgGroups, ← hgroup, hn]

theorem exists_groups (u : Uuid) : ∃ group : Nat → List Char,
    (∀ i < 8, (group i).length = 4) ∧ (∀ i, ∀ c ∈ group i, isHexDigit c = true) ∧
    u.hex = group 0 ++ (group 1 ++ (group 2 ++ (group 3 ++ (group 4 ++ (group 5 ++ (group 6 ++
      group 7)))))) ∧
    u.hyphenated = group 0 ++ (group 1 ++ '-' :: (group 2 ++ '-' :: (group 3 ++
      '-' :: (group 4 ++ '-' :: (group 5 ++ (group 6 ++ group 7)))))) := by
  have hlen := u.length_eq
  have hsplit : ∀ i, (u.hex.drop i).take 4 ++ u.hex.drop (i + 4) = u.hex.drop i := by
    intro i
    rw [← List.drop_drop, List.take_append_drop]
  have hlast : (u.hex.drop 28).take 4 = u.hex.drop 28 := List.take_of_length_le (by simp [hlen])
  have htail : u.hex.drop 20 = (u.hex.drop 20).take 4 ++ ((u.hex.drop 24).take 4 ++
      (u.hex.drop 28).take 4) := by
    rw [hlast, hsplit, hsplit]
  have hfront : u.hex.take 8 = (u.hex.drop 0).take 4 ++ (u.hex.drop 4).take 4 := by
    rw [List.drop_zero, ← List.take_add]
  refine ⟨fun i => (u.hex.drop (4 * i)).take 4, ?_, ?_, ?_, ?_⟩
  · intro i hi
    rw [List.length_take, List.length_drop, hlen]
    omega
  · intro i c hc
    exact List.all_eq_true.mp u.isHex c (List.mem_of_mem_drop (List.mem_of_mem_take hc))
  · simp only [Nat.reduceMul]
    rw [← htail, hsplit, hsplit, hsplit, hsplit, hsplit, List.drop_zero]
  · simp only [Nat.reduceMul]
    rw [← htail, ← List.append_assoc, ← hfront]
    rfl

theorem ofPg_toString (u : Uuid) : ofPg u.toString = some u := by
  obtain ⟨group, hlen, hdigit, hhex, hhyphens⟩ := u.exists_groups
  have hhead : ∀ i < 8, ∀ rest c, isHexDigit c = false → (group i ++ rest).head? ≠ some c := by
    intro i hi rest c hc heq
    cases hgroup : group i with
    | nil => exact absurd (hlen i hi) (by simp [hgroup])
    | cons d ds =>
      rw [hgroup, List.cons_append, List.head?_cons, Option.some.injEq] at heq
      have hd := hdigit i d (by rw [hgroup]; exact List.mem_cons_self)
      rw [heq, hc] at hd
      cases hd
  have hgroups : pgGroups 8 u.hyphenated = (u.hex, []) := by
    have hseven : pgGroups 1 (group 7) = (group 7, []) := by
      have hlast : pgGroups 1 (group 7 ++ []) = (group 7 ++ (pgGroups 0 []).1, (pgGroups 0 []).2) :=
        pgGroups_succ (hlen 7 (by omega)) (by simp)
      simpa [pgGroups] using hlast
    rw [hhyphens, pgGroups_succ (hlen 0 (by omega)) (hhead 1 (by omega) _ _ rfl),
      pgGroups_hyphen (hlen 1 (by omega)) (by omega),
      pgGroups_hyphen (hlen 2 (by omega)) (by omega),
      pgGroups_hyphen (hlen 3 (by omega)) (by omega),
      pgGroups_hyphen (hlen 4 (by omega)) (by omega),
      pgGroups_succ (hlen 5 (by omega)) (hhead 6 (by omega) _ _ rfl),
      pgGroups_succ (hlen 6 (by omega)) (by simpa using hhead 7 (by omega) [] '-' rfl),
      hseven, hhex]
  unfold ofPg
  rw [toString, String.toList_ofList]
  split
  · next cs heq =>
    have hbrace := hhead 0 (by omega) (group 1 ++ '-' :: (group 2 ++ '-' :: (group 3 ++
      '-' :: (group 4 ++ '-' :: (group 5 ++ (group 6 ++ group 7)))))) '{' rfl
    rw [← hhyphens, heq] at hbrace
    exact absurd rfl hbrace
  · rw [hgroups, if_pos rfl, parseSimple_hex]

theorem toString_injective (h : u.toString = v.toString) : u = v := by
  have := congrArg parseStr h
  rwa [parseStr_toString, parseStr_toString, Option.some.injEq] at this

theorem toString_inj : u.toString = v.toString ↔ u = v :=
  ⟨toString_injective, fun h => h ▸ rfl⟩

theorem hyphen_mem_toString (u : Uuid) : '-' ∈ u.toString.toList := by
  simp [toString, hyphenated]

theorem mem_toString (h : c ∈ u.toString.toList) : c = '-' ∨ isHexDigit c = true := by
  have hhex : ∀ c ∈ u.hex, isHexDigit c = true := List.all_eq_true.mp u.isHex
  have hgroup : ∀ i, c ∈ (u.hex.drop i).take 4 → isHexDigit c = true :=
    fun i hc => hhex c (List.mem_of_mem_drop (List.mem_of_mem_take hc))
  rw [toString, String.toList_ofList, hyphenated] at h
  simp only [List.mem_append, List.mem_cons] at h
  rcases h with h | h | h | h | h | h | h | h | h
  · exact .inr (hhex c (List.mem_of_mem_take h))
  · exact .inl h
  · exact .inr (hgroup 8 h)
  · exact .inl h
  · exact .inr (hgroup 12 h)
  · exact .inl h
  · exact .inr (hgroup 16 h)
  · exact .inl h
  · exact .inr (hhex c (List.mem_of_mem_drop h))

end Uuid

end WslVault.Core
