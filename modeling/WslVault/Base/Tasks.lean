import WslVault.Base.Sessions

/-!
# Requests that leave something behind on their way

A request of `Base.Sessions` changes what is shared when it ends. One that takes several
transactions, or writes to the memory of a process between two of them, changes it on its
way as well, and what it has written so far stays when it is dropped.
-/

namespace WslVault.Base

inductive Turn (δ φ ρ : Type*) where
  | wait
  | goOn (db : δ) (next : φ)
  | finish (db : δ) (reply : ρ)

def Turn.Ensures {δ φ ρ : Type*} (stay : δ → φ → Prop) (done : δ → ρ → Prop) : Turn δ φ ρ → Prop
  | wait => True
  | goOn db next => stay db next
  | finish db reply => done db reply

namespace Tasks

open Sessions

variable {δ κ φ ι ρ : Type*} (start : φ)
  (advance : δ → List (κ × φ) → ι → κ → φ → Turn δ φ ρ)

def step (s : Sessions δ κ φ) : SessionEvent κ ι → Sessions δ κ φ × Option (κ × ρ)
  | .arrive i request =>
    match s.current.lookup i with
    | some _ => (s, none)
    | none => (⟨s.db, s.current.insert i (request, start)⟩, none)
  | .resume i input =>
    match s.current.lookup i with
    | none => (s, none)
    | some (request, phase) =>
      match advance s.db (s.others i) input request phase with
      | .wait => (s, none)
      | .goOn db next => (⟨db, s.current.insert i (request, next)⟩, none)
      | .finish db reply => (⟨db, s.current.erase i⟩, some (request, reply))
  | .drop i => (⟨s.db, s.current.erase i⟩, none)

/-- A request that nobody comes between, with an input for each of its turns: what it leaves,
and its reply. -/
def alone (request : κ) : List ι → δ → φ → Option (δ × ρ)
  | [], _, _ => none
  | input :: inputs, db, phase =>
    match advance db [] input request phase with
    | .wait => alone request inputs db phase
    | .goOn db' next => alone request inputs db' next
    | .finish db' reply => some (db', reply)

/-! ## What happens in a step -/

/-- A request arrives, goes on or ends: by which session, and for a turn with what input,
from where and to what. -/
inductive Happening (δ κ φ ι ρ : Type*) where
  | arrived (i : Nat) (request : κ)
  | went (i : Nat) (input : ι) (request : κ) (phase : φ) (db : δ) (next : φ)
  | ended (i : Nat) (input : ι) (request : κ) (phase : φ) (db : δ) (reply : ρ)

def happens (s : Sessions δ κ φ) : SessionEvent κ ι → Option (Happening δ κ φ ι ρ)
  | .arrive i request =>
    match s.current.lookup i with
    | some _ => none
    | none => some (.arrived i request)
  | .resume i input =>
    match s.current.lookup i with
    | none => none
    | some (request, phase) =>
      match advance s.db (s.others i) input request phase with
      | .wait => none
      | .goOn db next => some (.went i input request phase db next)
      | .finish db reply => some (.ended i input request phase db reply)
  | .drop _ => none

theorem step_happens (s : Sessions δ κ φ) (e : SessionEvent κ ι) :
    (happens advance s e = none ∧ (step start advance s e).2 = none ∧
      ((step start advance s e).1 = s ∨
        ∃ i, (step start advance s e).1 = ⟨s.db, s.current.erase i⟩)) ∨
    (∃ i request, happens advance s e = some (.arrived i request) ∧
      e = .arrive i request ∧ s.current.lookup i = none ∧
      step start advance s e = (⟨s.db, s.current.insert i (request, start)⟩, none)) ∨
    (∃ i input request phase db next,
      happens advance s e = some (.went i input request phase db next) ∧ e = .resume i input ∧
      s.current.lookup i = some (request, phase) ∧
      advance s.db (s.others i) input request phase = .goOn db next ∧
      step start advance s e = (⟨db, s.current.insert i (request, next)⟩, none)) ∨
    (∃ i input request phase db reply,
      happens advance s e = some (.ended i input request phase db reply) ∧ e = .resume i input ∧
      s.current.lookup i = some (request, phase) ∧
      advance s.db (s.others i) input request phase = .finish db reply ∧
      step start advance s e = (⟨db, s.current.erase i⟩, some (request, reply))) := by
  cases e with
  | arrive i request =>
    cases hi : s.current.lookup i with
    | some x => exact .inl ⟨by simp only [happens, hi], by simp only [step, hi], .inl (by
        simp only [step, hi])⟩
    | none =>
      exact .inr (.inl ⟨i, request, by simp only [happens, hi], rfl, hi, by simp only [step, hi]⟩)
  | resume i input =>
    cases hi : s.current.lookup i with
    | none => exact .inl ⟨by simp only [happens, hi], by simp only [step, hi], .inl (by
        simp only [step, hi])⟩
    | some x =>
      obtain ⟨request, phase⟩ := x
      cases hadvance : advance s.db (s.others i) input request phase with
      | wait => exact .inl ⟨by simp only [happens, hi, hadvance],
          by simp only [step, hi, hadvance], .inl (by simp only [step, hi, hadvance])⟩
      | goOn db next =>
        refine .inr (.inr (.inl ⟨i, input, request, phase, db, next, ?_, rfl, hi, hadvance, ?_⟩))
        · simp only [happens, hi, hadvance]
        · simp only [step, hi, hadvance]
      | finish db reply =>
        refine .inr (.inr (.inr ⟨i, input, request, phase, db, reply, ?_, rfl, hi, hadvance, ?_⟩))
        · simp only [happens, hi, hadvance]
        · simp only [step, hi, hadvance]
  | drop i => exact .inl ⟨rfl, rfl, .inr ⟨i, rfl⟩⟩

variable {inv inv' : δ → Prop} {each each' : δ → κ × φ → Prop}
  {apart : κ × φ → κ × φ → Prop} {s : Sessions δ κ φ}

theorem valid_goOn (h : Valid inv each apart s) (i : Nat) {db : δ} {x : κ × φ} (hdb : inv' db)
    (hx : each' db x) (heach : ∀ y ∈ s.others i, each' db y)
    (hpair : ∀ y ∈ s.others i, apart x y ∧ apart y x) :
    Valid inv' each' apart ⟨db, s.current.insert i x⟩ := by
  have hfinish : Valid inv' each' apart (⟨db, s.current.erase i⟩ : Sessions δ κ φ) :=
    h.finish i hdb heach
  have hothers : ∀ y ∈ (⟨db, s.current.erase i⟩ : Sessions δ κ φ).others i, y ∈ s.others i := by
    intro y hy
    obtain ⟨j, hji, hj⟩ := mem_others.mp hy
    exact mem_others.mpr ⟨j, hji, (lookup_of_lookup_erase hj).2⟩
  have hset := hfinish.set i hx fun y hy => hpair y (hothers y hy)
  have hsame : ∀ j,
      ((s.current.erase i).insert i x).lookup j = (s.current.insert i x).lookup j := by
    intro j
    rw [lookup_insert_eq, lookup_insert_eq, lookup_erase_eq]
    split <;> rfl
  exact
    { db := hdb
      session := fun j y hj => hset.session j y ((hsame j).trans hj)
      pair := fun j l y z hne hj hl =>
        hset.pair j l y z hne ((hsame j).trans hj) ((hsame l).trans hl) }

/-- The rule for a step: what is asked of an arrival, of a turn that goes on, and of one
that ends its request. What is kept on the way may change with the history. -/
theorem valid_step {e : SessionEvent κ ι} (h : Valid inv each apart s)
    (hkeep : (step start advance s e).2 = none → inv' s.db ∧ ∀ x, each s.db x → each' s.db x)
    (harrive : ∀ i request, e = .arrive i request →
      (step start advance s e).2 = none → each' s.db (request, start) ∧
        ∀ y ∈ s.others i, apart (request, start) y ∧ apart y (request, start))
    (hgoOn : ∀ i input request phase db next, e = .resume i input →
      s.current.lookup i = some (request, phase) →
      advance s.db (s.others i) input request phase = .goOn db next →
      (step start advance s e).2 = none → inv' db ∧ each' db (request, next) ∧
        ∀ y ∈ s.others i, each' db y ∧ apart (request, next) y ∧ apart y (request, next))
    (hfinish : ∀ i input request phase db reply, e = .resume i input →
      s.current.lookup i = some (request, phase) →
      advance s.db (s.others i) input request phase = .finish db reply →
      (step start advance s e).2 = some (request, reply) → inv' db ∧ ∀ y ∈ s.others i, each' db y) :
    Valid inv' each' apart (step start advance s e).1 := by
  have hsame : (step start advance s e).2 = none → Valid inv' each' apart s := by
    intro hnone
    obtain ⟨hinv, heach⟩ := hkeep hnone
    exact h.mono (fun _ => hinv) heach
  rcases step_happens start advance s e with ⟨-, hnone, hstep | ⟨i, hstep⟩⟩ |
    ⟨i, request, -, he, -, hstep⟩ |
    ⟨i, input, request, phase, db, next, -, he, hi, hadvance, hstep⟩ |
    ⟨i, input, request, phase, db, reply, -, he, hi, hadvance, hstep⟩
  · rw [hstep]
    exact hsame hnone
  · have hvalid := hsame hnone
    rw [hstep]
    exact hvalid.finish i hvalid.db fun y hy => hvalid.others hy
  all_goals rw [hstep] at hsame hkeep harrive hgoOn hfinish ⊢
  · obtain ⟨heach, hpair⟩ := harrive i request he rfl
    exact (hsame rfl).set i heach hpair
  · obtain ⟨hdb, hx, hothers⟩ := hgoOn i input request phase db next he hi hadvance rfl
    exact valid_goOn h i hdb hx (fun y hy => (hothers y hy).1) fun y hy => (hothers y hy).2
  · obtain ⟨hdb, heach⟩ := hfinish i input request phase db reply he hi hadvance rfl
    exact h.finish i hdb heach

end Tasks

/-- A statement as a turn: one that goes on leaves what is shared as it is. -/
def Progress.turn {δ φ ρ : Type*} (db : δ) : Progress δ φ ρ → Turn δ φ ρ
  | wait => .wait
  | goOn next => .goOn db next
  | finish db reply => .finish db reply

namespace Sessions

variable {δ κ φ ι ρ : Type*} {p : Progress δ φ ρ} {db db' : δ} {next : φ} {reply : ρ}

theorem turn_eq_goOn : p.turn db = .goOn db' next ↔ db' = db ∧ p = .goOn next := by
  cases p <;> simp [Progress.turn, eq_comm]

theorem turn_eq_finish : p.turn db = .finish db' reply ↔ p = .finish db' reply := by
  cases p <;> simp [Progress.turn]

def turns (advance : δ → List (κ × φ) → ι → κ → φ → Progress δ φ ρ) :
    δ → List (κ × φ) → ι → κ → φ → Turn δ φ ρ :=
  fun db others input request phase => (advance db others input request phase).turn db

def step (start : φ) (advance : δ → List (κ × φ) → ι → κ → φ → Progress δ φ ρ) :
    Sessions δ κ φ → SessionEvent κ ι → Sessions δ κ φ × Option (κ × ρ) :=
  Tasks.step start (turns advance)

end Sessions

end WslVault.Base
