import Mathlib.Data.List.Infix

/-!
# Runs of a step function

A service is a state, a step function that takes a request to the next state and a reply,
and the lists of requests it serves. An invariant of every step holds after every run, a
condition met by every step of a run (`Along`) may be assumed while the invariant is carried
along, and then also for what the steps answer. The last rule is simulation, for a pair of
states and a relation as the invariant.
-/

namespace WslVault.Base

section Run

variable {σ ε ρ : Type*} (step : σ → ε → σ × ρ)

def run : σ → List ε → σ
  | s, [] => s
  | s, e :: es => run (step s e).1 es

def trace : σ → List ε → List (ε × ρ)
  | _, [] => []
  | s, e :: es => (e, (step s e).2) :: trace (step s e).1 es

@[simp] theorem run_append (s : σ) (es fs : List ε) :
    run step s (es ++ fs) = run step (run step s es) fs := by
  induction es generalizing s with
  | nil => rfl
  | cons e es ih => exact ih _

theorem run_concat (s : σ) (es : List ε) (e : ε) :
    run step s (es ++ [e]) = (step (run step s es) e).1 := by
  rw [run_append]
  rfl

@[simp] theorem trace_append (s : σ) (es fs : List ε) :
    trace step s (es ++ fs) = trace step s es ++ trace step (run step s es) fs := by
  induction es generalizing s with
  | nil => rfl
  | cons e es ih =>
    simp only [List.cons_append, trace, run]
    rw [ih]

theorem trace_concat (s : σ) (es : List ε) (e : ε) :
    trace step s (es ++ [e]) = trace step s es ++ [(e, (step (run step s es) e).2)] := by
  rw [trace_append]
  rfl

theorem map_fst_trace (s : σ) (es : List ε) : (trace step s es).map Prod.fst = es := by
  induction es generalizing s with
  | nil => rfl
  | cons e es ih => rw [trace, List.map_cons, ih]

variable {s : σ} {good good' : σ → ε → Prop} {es : List ε}

theorem run_invariant (inv : σ → Prop) (hstep : ∀ s e, inv s → inv (step s e).1) (hs : inv s)
    (es : List ε) : inv (run step s es) := by
  induction es generalizing s with
  | nil => exact hs
  | cons e es ih => exact ih (hstep s e hs)

theorem run_history (inv : List ε → σ → Prop)
    (hstep : ∀ es s e, inv es s → inv (es ++ [e]) (step s e).1) (hs : inv [] s) (es : List ε) :
    inv es (run step s es) := by
  induction es using List.reverseRecOn with
  | nil => exact hs
  | append_singleton es e ih =>
    rw [run_concat]
    exact hstep es _ e ih

/-- Every step of the run meets `good` in the state it starts from. -/
def Along (good : σ → ε → Prop) : σ → List ε → Prop
  | _, [] => True
  | s, e :: es => good s e ∧ Along good (step s e).1 es

instance Along.decidable (good : σ → ε → Prop) [∀ s e, Decidable (good s e)] :
    ∀ s es, Decidable (Along step good s es)
  | _, [] => isTrue trivial
  | s, e :: es =>
    have := Along.decidable good (step s e).1 es
    inferInstanceAs (Decidable (good s e ∧ Along step good (step s e).1 es))

variable {step} {fs : List ε} {p : ε → Prop}

theorem Along.before (h : Along step good s (es ++ fs)) : Along step good s es := by
  induction es generalizing s with
  | nil => trivial
  | cons e es ih => exact ⟨h.1, ih h.2⟩

theorem Along.after (h : Along step good s (es ++ fs)) : Along step good (run step s es) fs := by
  induction es generalizing s with
  | nil => exact h
  | cons e es ih => exact ih h.2

/-- An invariant that speaks of the requests served so far and their replies. -/
theorem Along.history (inv : List (ε × ρ) → σ → Prop)
    (hstep : ∀ served s e, inv served s → good s e →
      inv (served ++ [(e, (step s e).2)]) (step s e).1) (hs : inv [] s) (h : Along step good s es) :
    inv (trace step s es) (run step s es) := by
  induction es using List.reverseRecOn with
  | nil => exact hs
  | append_singleton es e ih =>
    rw [trace_concat, run_concat]
    exact hstep _ _ e (ih h.before) h.after.1

theorem Along.invariant (inv : σ → Prop)
    (hstep : ∀ s e, inv s → good s e → inv (step s e).1) (hs : inv s) (h : Along step good s es) :
    inv (run step s es) :=
  h.history (fun _ s => inv s) (fun _ s e => hstep s e) hs

/-- A fact about a step that it leaves true, and that later steps keep, holds of
every step of a run at its end. -/
theorem Along.trace_settled (inv : σ → Prop) (fact : σ → ε → ρ → Prop)
    (hstep : ∀ s e, inv s → good s e → inv (step s e).1 ∧ fact (step s e).1 e (step s e).2)
    (hkeep : ∀ s e f r, inv s → fact s f r → fact (step s e).1 f r) (hs : inv s)
    (h : Along step good s es) : ∀ x ∈ trace step s es, fact (run step s es) x.1 x.2 := by
  refine (h.history (fun served s => inv s ∧ ∀ x ∈ served, fact s x.1 x.2)
    (fun served s e hinv hgood => ?_) ⟨hs, by simp⟩).2
  obtain ⟨hnext, hfact⟩ := hstep s e hinv.1 hgood
  refine ⟨hnext, fun x hx => ?_⟩
  rcases List.mem_append.mp hx with hx | hx
  · exact hkeep s e _ _ hinv.1 (hinv.2 x hx)
  · rw [List.mem_singleton.mp hx]
    exact hfact

theorem Along.imp_of_invariant (inv : σ → Prop)
    (hstep : ∀ s e, inv s → good s e → inv (step s e).1 ∧ good' s e) (hs : inv s)
    (h : Along step good s es) : Along step good' s es := by
  induction es generalizing s with
  | nil => trivial
  | cons e es ih =>
    obtain ⟨hnext, hgood⟩ := hstep s e hs h.1
    exact ⟨hgood, ih hnext h.2⟩

theorem Along.imp (himp : ∀ s e, good s e → good' s e) (h : Along step good s es) :
    Along step good' s es :=
  h.imp_of_invariant (fun _ => True) (fun s e _ hgood => ⟨trivial, himp s e hgood⟩) trivial

theorem Along.and (h : Along step good s es) (h' : Along step good' s es) :
    Along step (fun s e => good s e ∧ good' s e) s es := by
  induction es generalizing s with
  | nil => trivial
  | cons e es ih => exact ⟨⟨h.1, h'.1⟩, ih h.2 h'.2⟩

variable (step) in
theorem along_of_forall (h : ∀ e ∈ es, p e) : Along step (fun _ e => p e) s es := by
  induction es generalizing s with
  | nil => trivial
  | cons e es ih =>
    exact ⟨h e List.mem_cons_self, ih fun f hf => h f (List.mem_cons_of_mem e hf)⟩

theorem Along.and_forall (h : Along step good s es) (hp : ∀ e ∈ es, p e) :
    Along step (fun s e => good s e ∧ p e) s es :=
  h.and (along_of_forall step hp)

theorem filterMap_concat {α β : Type*} (f : α → Option β) (xs : List α) (x : α) :
    (xs ++ [x]).filterMap f = xs.filterMap f ++ (f x).toList := by
  cases h : f x <;> simp [List.filterMap_append, h]

section Gather

variable {α : Type*} (note : σ → ε → Option α)

variable (step) in
def gather : σ → List ε → List α
  | _, [] => []
  | s, e :: es => (note s e).toList ++ gather (step s e).1 es

theorem gather_concat (s : σ) (es : List ε) (e : ε) :
    gather step note s (es ++ [e]) =
      gather step note s es ++ (note (run step s es) e).toList := by
  induction es generalizing s with
  | nil => simp [gather, run]
  | cons f es ih => simp only [List.cons_append, gather, run, ih, List.append_assoc]

variable {note} in
theorem Along.gathered (inv : List α → σ → Prop)
    (hstep : ∀ notes s e, inv notes s → good s e →
      inv (notes ++ (note s e).toList) (step s e).1) (hs : inv [] s) (h : Along step good s es) :
    inv (gather step note s es) (run step s es) := by
  induction es using List.reverseRecOn with
  | nil => exact hs
  | append_singleton es e ih =>
    rw [gather_concat, run_concat]
    exact hstep _ _ e (ih h.before) h.after.1

theorem append_toList_eq {l a b : List α} {o : Option α} {x : α} (h : l ++ o.toList = a ++ x :: b) :
    (∃ b', l = a ++ x :: b' ∧ b = b' ++ o.toList) ∨ o = some x ∧ a = l ∧ b = [] := by
  rcases List.append_eq_append_iff.mp h with ⟨c, rfl, ho⟩ | ⟨c, rfl, hx⟩
  · cases o with
    | none => simp at ho
    | some n =>
      cases c with
      | nil =>
        cases ho
        exact .inr ⟨rfl, (List.append_nil l), rfl⟩
      | cons y c => simp at ho
  · cases c with
    | nil =>
      cases o with
      | none => cases hx
      | some n =>
        cases hx
        exact .inr ⟨rfl, (List.append_nil a).symm, rfl⟩
    | cons y c =>
      cases hx
      exact .inl ⟨c, rfl, rfl⟩

end Gather

end Run

end WslVault.Base
