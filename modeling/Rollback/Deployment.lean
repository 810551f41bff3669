import Rollback.Actor.Basic

/-!
# Deployments

Several actors over what they share. Between two events from outside every actor goes on until none
of them can take a step.
-/

namespace Rollback

/-- What a step may draw on: a fresh id and a reading of the clock. -/
structure Draw where
  fresh : CheckpointId
  now : Instant

/-- Running instances over what they share. -/
structure Deployment (ι σ : Type) where
  actors : List (Actor ι)
  world : World ι σ
  draws : Nat

namespace Deployment

variable {ι σ : Type} [DecidableEq ι] [Checkpointable σ]

/-- The first of the actors that can take a step does so. -/
def stepFirst? (draw : Draw) (w : World ι σ) : List (Actor ι) → Option (List (Actor ι) × World ι σ)
  | [] => none
  | a :: rest =>
    match a.step? w draw.fresh draw.now with
    | some (a, w) => some (a :: rest, w)
    | none => (stepFirst? draw w rest).map fun (rest, w) => (a :: rest, w)

def step? (d : Deployment ι σ) (supply : Nat → Draw) : Option (Deployment ι σ) :=
  (stepFirst? (supply d.draws) d.world d.actors).map fun (actors, world) =>
    ⟨actors, world, d.draws + 1⟩

def load (d : Deployment ι σ) : Nat :=
  d.actors.foldr (fun a load => a.load + load) 0

/-- Takes steps, up to the given number. -/
def run (supply : Nat → Draw) : (steps : Nat) → Deployment ι σ → Deployment ι σ
  | 0, d => d
  | steps + 1, d =>
    match d.step? supply with
    | some d => run supply steps d
    | none => d

/-- Takes steps until no actor can take another. -/
def settle (d : Deployment ι σ) (supply : Nat → Draw) : Deployment ι σ := run supply d.load d

def call (d : Deployment ι σ) (number : Nat) (c : Call ι) : Deployment ι σ :=
  match d.actors[number]? with
  | some a =>
    let (a, world) := a.call d.world c
    { d with actors := d.actors.set number a, world }
  | none => d

def abort (d : Deployment ι σ) (number : Nat) : Deployment ι σ :=
  match d.actors[number]? with
  | some a =>
    let (a, world) := a.abort d.world
    { d with actors := d.actors.set number a, world }
  | none => d

end Deployment

end Rollback
