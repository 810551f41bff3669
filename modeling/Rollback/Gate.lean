/-!
# Gates

A gate is held by one ticket at a time: by a unit of work or by a checkpoint operation. All others
wait in the order in which they came, so that neither side starves the other.
-/

namespace Rollback

/-- Who holds the gate and who waits for it, first come first. -/
structure Gate (τ : Type) where
  holder : Option τ
  waiting : List τ
  deriving DecidableEq, Repr

namespace Gate

variable {τ : Type} [DecidableEq τ]

def free : Gate τ := ⟨none, []⟩

instance : Inhabited (Gate τ) := ⟨free⟩

def isHeld (g : Gate τ) : Bool := g.holder.isSome

/-- Takes the gate, or a place at the end of the queue. -/
def enter (g : Gate τ) (t : τ) : Gate τ :=
  if g.holder.isNone then { g with holder := some t } else { g with waiting := g.waiting ++ [t] }

def advance (g : Gate τ) : Gate τ :=
  match g.waiting with
  | [] => ⟨none, []⟩
  | t :: rest => ⟨some t, rest⟩

/-- The holder gives the gate back; from any other ticket it changes nothing. -/
def release (g : Gate τ) (t : τ) : Gate τ := if g.holder = some t then g.advance else g

/-- A ticket that waits gives up; the holder keeps the gate. -/
def cancel (g : Gate τ) (t : τ) : Gate τ := { g with waiting := g.waiting.filter (· ≠ t) }

omit [DecidableEq τ] in
theorem isHeld_enter (g : Gate τ) (t : τ) : (g.enter t).isHeld = true := by
  cases h : g.holder <;> simp [enter, isHeld, h]

theorem release_of_ne {g : Gate τ} {t : τ} (h : g.holder ≠ some t) : g.release t = g := by
  simp [release, h]

theorem holder_cancel (g : Gate τ) (t : τ) : (g.cancel t).holder = g.holder := rfl

end Gate

end Rollback
