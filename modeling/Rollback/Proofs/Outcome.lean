import Mathlib.Data.List.Forall2
import Rollback.Error

/-!
# Steps that succeed

A sequence of steps succeeds exactly if each of its steps does.
-/

namespace Rollback

namespace Outcome

variable {ε α β : Type}

theorem bind_eq_ok_iff {x : Except ε α} {f : α → Except ε β} {b : β} :
    x >>= f = .ok b ↔ ∃ a, x = .ok a ∧ f a = .ok b := by
  cases x with
  | error e => simp [bind, Except.bind]
  | ok a => simp [bind, Except.bind]

theorem mapM_eq_ok_iff {f : α → Outcome β} {l : List α} {results : List β} :
    l.mapM f = .ok results ↔ List.Forall₂ (fun a b => f a = .ok b) l results := by
  induction l generalizing results with
  | nil => simp [pure, Except.pure, eq_comm]
  | cons a rest ih =>
    rw [List.mapM_cons, List.forall₂_cons_left_iff]
    cases first : f a with
    | error e => simp [bind, Except.bind]
    | ok b =>
      cases later : rest.mapM f with
      | error e => simp [bind, Except.bind, ← ih, later]
      | ok others => simp [bind, Except.bind, pure, Except.pure, ← ih, later, eq_comm]

theorem bind_mapM_id_eq_ok_iff {f : α → Outcome (Outcome β)} {l : List α}
    {results : List β} : (l.mapM f).bind (·.mapM id) = .ok results ↔
      List.Forall₂ (fun a b => f a = .ok (.ok b)) l results := by
  induction l generalizing results with
  | nil => simp [pure, Except.pure, Except.bind, eq_comm]
  | cons a rest ih =>
    rw [List.mapM_cons, List.forall₂_cons_left_iff]
    cases first : f a with
    | error e => simp [bind, Except.bind]
    | ok result =>
      cases later : rest.mapM f with
      | error e => simp [bind, Except.bind, ← ih, later]
      | ok found =>
        cases result with
        | error e => simp [bind, Except.bind, pure, Except.pure]
        | ok b =>
          cases inner : found.mapM id with
          | error e => simp [bind, Except.bind, pure, Except.pure, ← ih, later, inner]
          | ok others => simp [bind, Except.bind, pure, Except.pure, ← ih, later, inner, eq_comm]

theorem exists_forall₂ {r : α → β → Prop} {l : List α} (each : ∀ a ∈ l, ∃ b, r a b) :
    ∃ results, List.Forall₂ r l results := by
  induction l with
  | nil => exact ⟨[], .nil⟩
  | cons a rest ih =>
    rw [List.forall_mem_cons] at each
    obtain ⟨b, first⟩ := each.1
    obtain ⟨results, others⟩ := ih each.2
    exact ⟨b :: results, .cons first others⟩

end Outcome

end Rollback
