import Mathlib

/-! Outcomes that may be errors: when a step that follows another one succeeds, both
have, and renaming the errors touches no success. Of several steps the first that fails
is the one that is heard of. -/
namespace TileCost.Outcome

variable {ε ε' α β : Type}

@[simp] theorem bindOk {x : Except ε α} {f : α → Except ε β} {b : β} :
    x >>= f = .ok b ↔ ∃ a, x = .ok a ∧ f a = .ok b := by
  cases x with
  | error fault => simp [bind, Except.bind]
  | ok a => simp [bind, Except.bind]

@[simp] theorem bindError {x : Except ε α} {f : α → Except ε β} {e : ε} :
    x >>= f = .error e ↔ x = .error e ∨ ∃ a, x = .ok a ∧ f a = .error e := by
  cases x with
  | error fault => simp [bind, Except.bind]
  | ok a => simp [bind, Except.bind]

@[simp] theorem mapErrorOk {x : Except ε α} {f : ε → ε'} {a : α} :
    x.mapError f = .ok a ↔ x = .ok a := by
  cases x with
  | error fault => simp [Except.mapError]
  | ok a => simp [Except.mapError]

@[simp] theorem mapOk {x : Except ε α} {f : α → β} {b : β} :
    x.map f = .ok b ↔ ∃ a, x = .ok a ∧ f a = b := by
  cases x with
  | error fault => simp [Except.map]
  | ok a => simp [Except.map]

@[simp] theorem mapError {x : Except ε α} {f : α → β} {e : ε} : x.map f = .error e ↔ x = .error e := by
  cases x with
  | error fault => simp [Except.map]
  | ok a => simp [Except.map]

@[simp] theorem mapErrorError {x : Except ε α} {f : ε → ε'} {e : ε'} :
    x.mapError f = .error e ↔ ∃ fault, x = .error fault ∧ f fault = e := by
  cases x with
  | error fault => simp [Except.mapError]
  | ok a => simp [Except.mapError]

theorem eachOk {f : α → Except ε β} {xs : List α} {ys : List β} :
    xs.mapM f = .ok ys ↔ List.Forall₂ (f · = .ok ·) xs ys := by
  induction xs generalizing ys with
  | nil => simp [pure, Except.pure, eq_comm]
  | cons x xs ih =>
      simp only [List.mapM_cons, bindOk, ih, List.forall₂_cons_left_iff, pure, Except.pure,
        Except.ok.injEq]
      constructor
      · rintro ⟨y, one, ys, others, rfl⟩
        exact ⟨y, ys, one, others, rfl⟩
      · rintro ⟨y, ys, one, others, rfl⟩
        exact ⟨y, one, ys, others, rfl⟩

theorem eachError {f : α → Except ε β} {xs : List α} {e : ε} :
    xs.mapM f = .error e ↔
      ∃ front x back, xs = front ++ x :: back ∧ (∀ y ∈ front, ∃ b, f y = .ok b) ∧
        f x = .error e := by
  induction xs with
  | nil => simp [pure, Except.pure]
  | cons x xs ih =>
      simp only [List.mapM_cons, bindError, ih]
      constructor
      · rintro (here | ⟨y, one, ⟨front, culprit, back, rfl, taken, failed⟩ | ⟨_, _, none⟩⟩)
        · exact ⟨[], x, xs, rfl, by simp, here⟩
        · exact ⟨x :: front, culprit, back, rfl, List.forall_mem_cons.mpr ⟨⟨y, one⟩, taken⟩, failed⟩
        · cases none
      · rintro ⟨front, culprit, back, same, taken, failed⟩
        cases front with
        | nil =>
            cases same
            exact .inl failed
        | cons first front =>
            cases same
            obtain ⟨⟨y, one⟩, taken⟩ := List.forall_mem_cons.mp taken
            exact .inr ⟨y, one, .inl ⟨front, culprit, back, rfl, taken, failed⟩⟩

end TileCost.Outcome
