import Mathlib.Init

/-!
# Fallible computations

Running a sequence of fallible steps whose outcomes are known, and peeling a
successful one apart, one step at a time.
-/

namespace WslVault.Base

variable {ε : Type*} {α β : Type}

theorem ok_bind (a : α) (f : α → Except ε β) : (Except.ok a >>= f) = f a := rfl

theorem error_bind (e : ε) (f : α → Except ε β) : (Except.error e >>= f) = .error e := rfl

variable {ε' : Type*}

theorem mapError_ok (f : ε → ε') (a : α) : (Except.ok a : Except ε α).mapError f = .ok a := rfl

theorem mapError_error (f : ε → ε') (e : ε) :
    (Except.error e : Except ε α).mapError f = .error (f e) := rfl

variable {x : Except ε α} {e : ε} {f : α → Except ε β}

theorem bind_eq_ok {b : β} : (x >>= f) = .ok b ↔ ∃ a, x = .ok a ∧ f a = .ok b := by
  cases x with
  | error e => simp [bind, Except.bind]
  | ok a => simp [bind, Except.bind]

theorem bind_eq_error : (x >>= f) = .error e ↔ x = .error e ∨ ∃ a, x = .ok a ∧ f a = .error e := by
  cases x with
  | error e' => simp [error_bind]
  | ok a => simp [ok_bind]

variable {a : α}

theorem pure_eq_ok {b : α} : (pure a : Except ε α) = .ok b ↔ a = b := by
  simp [pure, Except.pure]

theorem map_eq_ok {f : α → β} {b : β} :
    x.map f = .ok b ↔ ∃ a, x = .ok a ∧ f a = b := by
  cases x with
  | error e => simp [Except.map]
  | ok a => simp [Except.map]

variable {f : ε → ε'} {bad : Prop}

theorem mapError_eq_ok (h : x.mapError f = .ok a) : x = .ok a := by
  cases x with
  | ok b =>
    cases h
    rfl
  | error e => cases h

theorem mapError_eq_ok_iff :
    x.mapError f = .ok a ↔ x = .ok a :=
  ⟨mapError_eq_ok, fun h => h ▸ mapError_ok f a⟩

theorem mapError_eq_error {e : ε'} :
    x.mapError f = .error e ↔ ∃ cause, x = .error cause ∧ f cause = e := by
  cases x with
  | error cause => simp [mapError_error]
  | ok a => simp [mapError_ok]

theorem toOption_eq_some : x.toOption = some a ↔ x = .ok a := by
  cases x with
  | ok b => simp [Except.toOption]
  | error e => simp [Except.toOption]

theorem toOption_mapError (f : ε → ε') (x : Except ε α) : (x.mapError f).toOption = x.toOption := by
  cases x with
  | ok a => rfl
  | error e => rfl

def refuseIf (bad : Prop) [Decidable bad] (e : ε) : Except ε Unit :=
  if bad then .error e else .ok ()

theorem refuseIf_of_not [Decidable bad] (h : ¬ bad) (e : ε) : refuseIf bad e = .ok () := if_neg h

theorem refuseIf_eq_ok [Decidable bad] {u : Unit} : refuseIf bad e = .ok u ↔ ¬ bad := by
  unfold refuseIf
  split
  · next h => simp [h]
  · next h => simp [h]

def okOr (o : Option α) (e : ε) : Except ε α :=
  match o with
  | some a => .ok a
  | none => .error e

theorem okOr_eq_ok {o : Option α} : okOr o e = .ok a ↔ o = some a := by
  cases o with
  | some b => simp [okOr]
  | none => simp [okOr]

end WslVault.Base
