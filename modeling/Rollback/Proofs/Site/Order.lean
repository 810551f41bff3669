import Rollback.Proofs.Site.Stages

/-!
# Who holds the gate

All who stand at the gate are units of work, calls that wait for it, and commands that stop all work.
Such a command holds the gate from the moment at which it is sent until it was carried out, so there
is never a second one under way, and no unit of work that holds the gate (`Contest.pausing_eq`, `Contest.pausing_eq_nil`).
-/

namespace Rollback

namespace Gate

variable {τ : Type} {g : Gate τ} {t u : τ}

/-- All who stand at a gate, the holder first. -/
def standing (g : Gate τ) : List τ := g.holder.toList ++ g.waiting

/-- Nobody waits at a gate that is free. -/
def Sound (g : Gate τ) : Prop := g.holder = none → g.waiting = []

theorem head?_standing (sound : g.Sound) : g.standing.head? = g.holder := by
  cases held : g.holder with
  | none => simp [standing, held, sound held]
  | some t => simp [standing, held]

theorem standing_enter (sound : g.Sound) (t : τ) : (g.enter t).standing = g.standing ++ [t] := by
  cases held : g.holder with
  | none => simp [standing, enter, held, sound held]
  | some u => simp [standing, enter, held]

theorem sound_enter (g : Gate τ) (t : τ) : (g.enter t).Sound := by
  cases held : g.holder <;> simp [Sound, enter, held]

theorem holder_enter (held : g.holder = some u) (t : τ) : (g.enter t).holder = some u := by
  simp [enter, held]

variable [DecidableEq τ]

theorem standing_release (held : g.holder = some t) :
    g.standing = t :: (g.release t).standing := by
  cases waiting : g.waiting <;> simp [standing, release, advance, held, waiting]

theorem Sound.release (sound : g.Sound) (t : τ) : (g.release t).Sound := by
  unfold Gate.release
  split
  · cases waiting : g.waiting <;> simp [Sound, advance, waiting]
  · exact sound

/-- A gate at which everybody stands once, under a ticket of those that were given out. -/
structure Lined (g : Gate Ticket) (tickets : Nat) : Prop where
  sound : g.Sound
  distinct : g.standing.Nodup
  numbered : ∀ t ∈ g.standing, t < tickets

namespace Lined

variable {g : Gate Ticket} {tickets : Nat}

theorem succ (lined : g.Lined tickets) : g.Lined (tickets + 1) :=
  ⟨lined.sound, lined.distinct, fun t member => Nat.lt_succ_of_lt (lined.numbered t member)⟩

theorem enter (lined : g.Lined tickets) : (g.enter tickets).Lined (tickets + 1) := by
  have stands := standing_enter lined.sound tickets
  constructor
  · exact sound_enter g tickets
  · rw [stands, List.nodup_append]
    refine ⟨lined.distinct, List.nodup_singleton _, ?_⟩
    intro t member u new
    rw [List.mem_singleton.mp new]
    exact Nat.ne_of_lt (lined.numbered t member)
  · intro t member
    rw [stands, List.mem_append, List.mem_singleton] at member
    obtain member | rfl := member
    · exact Nat.lt_succ_of_lt (lined.numbered t member)
    · exact Nat.lt_succ_self _

theorem release (lined : g.Lined tickets) {t : Ticket} (held : g.holder = some t) :
    (g.release t).Lined tickets := by
  have stood := standing_release held
  constructor
  · exact lined.sound.release t
  · exact (List.nodup_cons.mp (stood ▸ lined.distinct)).2
  · intro u member
    exact lined.numbered u (stood ▸ List.mem_cons_of_mem t member)

end Lined

end Gate

namespace World

variable {ι σ : Type} (w : World ι σ) (id : GateId) (t : Ticket)

@[simp] theorem gates_enter : (w.enter id t).gates id = (w.gates id).enter t := by
  simp [enter, setGate]

@[simp] theorem gates_release : (w.release id t).gates id = (w.gates id).release t := by
  simp [release, setGate]

end World

theorem perm_filter_ne {α : Type} {key : α → Nat} {a : α} {l : List α} (member : a ∈ l)
    (distinct : (l.map key).Nodup) : l.Perm (a :: l.filter (key · ≠ key a)) := by
  induction l with
  | nil => contradiction
  | cons b rest ih =>
    rw [List.map_cons, List.nodup_cons] at distinct
    obtain rfl | member := List.mem_cons.mp member
    · have others : ∀ c ∈ rest, key c ≠ key a := fun c other same =>
        distinct.1 (same ▸ List.mem_map_of_mem other)
      rw [List.filter_cons_of_neg (by simp), List.filter_eq_self.mpr (by simpa using others)]
    · have other : key b ≠ key a := fun same => distinct.1 (same ▸ List.mem_map_of_mem member)
      rw [List.filter_cons_of_pos (by simpa using other)]
      exact ((ih member distinct.2).cons b).trans (.swap a b _)

theorem Actor.send_of_running {ι σ : Type} {a : Actor ι} (running : a.running = true)
    (w : World ι σ) (c : Call ι) : a.send w c = ({ a with sending := a.sending ++ [c] }, w) :=
  if_pos running

namespace Site

variable {ι σ : Type}

section Moves

variable [DecidableEq ι] [Checkpointable σ]

/-! ## What a move does -/

/-- What a move does while the actor runs. -/
inductive Acts (p : Site ι σ) : Move ι σ → Site ι σ → Prop
  | enter : Acts p .enter { p with
      world := p.world.enter p.actor.service.gate p.tickets
      units := p.units ++ [p.tickets]
      tickets := p.tickets + 1 }
  | change {unit : Ticket} (here : unit ∈ p.units) (holds : p.holder = some unit) (handle : ι)
      (f : σ → σ) : Acts p (.change unit handle f) { p with
        world := p.world.setObject handle (f (p.world.objects handle))
        log := p.log ++ [.did unit (.changed handle f)] }
  | ask {unit : Ticket} (here : unit ∈ p.units) (holds : p.holder = some unit) {c : Command ι}
      (free : c.pauses = false) : Acts p (.ask unit c) { p with
        actor := { p.actor with sending := p.actor.sending ++ [⟨p.tickets, c⟩] }
        calls := p.calls ++ [(p.tickets, some unit)]
        tickets := p.tickets + 1
        log := p.log ++ [.did unit (.told c)] }
  | leave {unit : Ticket} (here : unit ∈ p.units) (holds : p.holder = some unit)
      (answered : p.answered unit = true) : Acts p (.leave unit) { p with
        world := p.world.release p.actor.service.gate unit
        units := p.units.filter (· ≠ unit) }
  | wait {c : Command ι} (pauses : c.pauses = true) : Acts p (.call c) { p with
      actor := { p.actor with atGate := p.actor.atGate ++ [⟨p.tickets, c⟩] }
      world := p.world.enter p.actor.service.gate p.tickets
      calls := p.calls ++ [(p.tickets, none)]
      tickets := p.tickets + 1 }
  | send {c : Command ι} (free : c.pauses = false) : Acts p (.call c) { p with
      actor := { p.actor with sending := p.actor.sending ++ [⟨p.tickets, c⟩] }
      calls := p.calls ++ [(p.tickets, none)]
      tickets := p.tickets + 1 }
  | pass {c : Call ι} (waits : c ∈ p.actor.atGate) (holds : p.holder = some c.ticket) :
      Acts p .pass { p with
        actor := { p.actor with
          atGate := p.actor.atGate.filter (·.ticket ≠ c.ticket)
          sending := p.actor.sending ++ [c] } }
  | accept {c : Call ι} {rest : List (Call ι)} (first : p.actor.sending = c :: rest)
      (room : p.actor.queue.length < p.actor.capacity) : Acts p .accept { p with
        actor := { p.actor with
          sending := rest
          queue := p.actor.queue ++ [c]
          replies := p.actor.replies ++
            if c.command.answers then [] else [(c.ticket, .ok .done)] } }
  | begin {c : Call ι} {rest : List (Call ι)} (idle : p.task = none)
      (first : p.actor.queue = c :: rest) (draw : Draw) : Acts p (.begin draw) { p with
        actor := { p.actor with queue := rest }
        task := some ⟨c, draw, .begun⟩ }
  | perform {t : Task ι} (at_ : p.task = some t) {stage : Stage ι} {s : Service ι} {w : World ι σ}
      (advances : Stage.Advances t.call.command t.draw p.actor.service p.world t.stage stage s w) :
      Acts p .advance { p with
        actor := { p.actor with service := s }
        world := w
        task := some { t with stage }
        log := p.log ++ t.entries stage }
  | publish {c : Call ι} {draw : Draw} {result : Outcome Reply}
      (at_ : p.task = some ⟨c, draw, .performed result⟩) : Acts p .advance { p with
        actor := { p.actor with
          published := if c.command.moves then p.actor.service.chainEnd else p.actor.published }
        task := some ⟨c, draw, .published result⟩ }
  | release {c : Call ι} {draw : Draw} {result : Outcome Reply}
      (at_ : p.task = some ⟨c, draw, .published result⟩) : Acts p .advance { p with
        world := p.actor.letGo p.world c
        task := some ⟨c, draw, .released result⟩ }
  | answer {c : Call ι} {draw : Draw} {result : Outcome Reply}
      (at_ : p.task = some ⟨c, draw, .released result⟩) : Acts p .advance { p with
        actor := { p.actor with
          replies := p.actor.replies ++ if c.command.answers then [(c.ticket, result)] else [] }
        task := none }

variable {p q : Site ι σ} {m : Move ι σ}

theorem acts_of_advance {t : Task ι} (at_ : p.task = some t) : Acts p .advance (p.carryOn t) := by
  obtain ⟨c, draw, stage⟩ := t
  cases stage with
  | performed result => exact .publish at_
  | published result => exact .release at_
  | released result =>
    have answers := Acts.answer at_
    cases waits : c.command.answers <;>
      simpa [carryOn, waits, Actor.reply] using answers
  | begun | capturing _ _ | overwriting _ _ _ =>
    exact .perform at_ (Stage.advances_of_next rfl rfl)

theorem acts_of_act? (running : p.actor.running = true) (acted : p.act? m = some q) :
    Acts p m q := by
  cases m with
  | enter =>
    cases acted
    exact .enter
  | change unit handle f =>
    obtain ⟨⟨here, holds⟩, rfl⟩ := by simpa only [act?, Option.ite_none_right_eq_some,
      Option.some.injEq] using acted
    exact .change here holds handle f
  | ask unit c =>
    obtain ⟨⟨here, holds, free⟩, rfl⟩ := by simpa only [act?, Option.ite_none_right_eq_some,
      Option.some.injEq] using acted
    have asks := Acts.ask here holds free
    simpa [Actor.call, Actor.send, free, running] using asks
  | leave unit =>
    obtain ⟨⟨here, holds, answered⟩, rfl⟩ := by simpa only [act?, Option.ite_none_right_eq_some,
      Option.some.injEq] using acted
    exact .leave here holds answered
  | call c =>
    cases stops : c.pauses with
    | true =>
      simp only [act?, Actor.call, stops, if_true, Option.some.injEq] at acted
      rw [← acted]
      exact Acts.wait (p := p) stops
    | false =>
      simp only [act?, Actor.call, Actor.send_of_running running, stops, Bool.false_eq_true, if_false,
        Option.some.injEq] at acted
      rw [← acted]
      exact Acts.send (p := p) stops
  | pass =>
    simp only [act?, Actor.pass?, Option.map_map, Option.map_eq_some_iff] at acted
    obtain ⟨c, found, rfl⟩ := acted
    have holds : p.actor.hasGate p.world c = true := List.find?_some found
    have passes := Acts.pass (List.mem_of_find?_eq_some found) (of_decide_eq_true holds)
    simpa [Actor.send, running] using passes
  | accept =>
    simp only [act?, Actor.accept?, Option.map_eq_some_iff] at acted
    obtain ⟨a, taken, rfl⟩ := acted
    split at taken
    · rename_i c rest first
      rw [Option.ite_none_right_eq_some] at taken
      obtain ⟨room, taken⟩ := taken
      have accepts := Acts.accept first room
      cases taken
      cases waits : c.command.answers <;> simpa [waits, Actor.reply] using accepts
    · cases taken
  | begin draw =>
    simp only [act?] at acted
    split at acted
    · rename_i idle first
      cases acted
      exact .begin idle first draw
    · cases acted
  | advance =>
    obtain ⟨t, at_, rfl⟩ := Option.map_eq_some_iff.mp acted
    exact acts_of_advance at_

/-- An invariant of all moves is one of all runs. -/
theorem run?_keeps {P : Site ι σ → Prop} {A : Move ι σ → Prop}
    (keeps : ∀ {p m q}, P p → A m → p.step? m = some q → P q) {moves : List (Move ι σ)} :
    ∀ {p q : Site ι σ}, P p → (∀ m ∈ moves, A m) → p.run? moves = some q → P q := by
  induction moves with
  | nil =>
    intro p q holds _ runs
    cases runs
    exact holds
  | cons m rest ih =>
    intro p q holds all runs
    rw [run?, List.foldlM_cons] at runs
    obtain ⟨between, steps, runs⟩ := Option.bind_eq_some_iff.mp runs
    rw [List.forall_mem_cons] at all
    exact ih (keeps holds all.1 steps) all.2 runs

end Moves

variable {p q : Site ι σ}

/-- The entries that are noted say who got the gate, and nothing else. -/
theorem filterMap_acquisitions {β : Type} {f : Entry ι σ → Option β}
    (quiet : ∀ t, f (.acquired t) = none) (before after : Option Ticket) :
    (acquisitions before after).filterMap f = [] := by
  unfold acquisitions
  split
  · rfl
  · cases after <;> simp [quiet]

/-! ## Commands that are sent -/

/-- The command that a move sends. -/
def Move.command? : Move ι σ → Option (Command ι)
  | ask _ c | call c => some c
  | _ => none

/-- All calls that were made and not yet carried out. -/
def afoot (p : Site ι σ) : List (Call ι) :=
  p.task.toList.map (·.call) ++ p.actor.queue ++ p.actor.sending ++ p.actor.atGate

/-- What is true of all commands that are sent is true of all that are carried out. -/
theorem afoot_acts [DecidableEq ι] [Checkpointable σ] {m : Move ι σ} {P : Command ι → Prop}
    (all : ∀ c ∈ p.afoot, P c.command) (sends : ∀ c ∈ m.command?, P c) (acted : Acts p m q) :
    ∀ c ∈ q.afoot, P c.command := by
  intro d member
  cases acted with
  | enter | change _ _ _ _ | leave _ _ _ => exact all d member
  | @ask _ _ _ c _ | @wait c _ | @send c _ =>
    have sent : P c := sends c rfl
    by_cases new : d = ⟨p.tickets, c⟩
    · rw [new]
      exact sent
    · refine all d ?_
      simp only [afoot, List.mem_append, List.mem_singleton, new, or_false] at member ⊢
      exact member
  | pass waits _ =>
    refine all d ?_
    simp only [afoot, List.mem_append, List.mem_singleton, List.mem_filter] at member ⊢
    obtain ((on | on) | on | rfl) | on := member <;> simp [*]
  | accept first _ =>
    refine all d ?_
    simp only [afoot, first, List.mem_append, List.mem_cons] at member ⊢
    tauto
  | begin idle first _ =>
    refine all d ?_
    simpa [afoot, idle, first, or_assoc] using member
  | perform at_ _ | publish at_ | release at_ =>
    refine all d ?_
    simpa [afoot, at_] using member
  | answer at_ =>
    refine all d ?_
    simp only [afoot, Option.toList_none, List.map_nil, List.nil_append, List.mem_append] at member ⊢
    exact member.imp_left (Or.imp_left Or.inr)

/-! ## The order at the gate -/

/-- Everybody stands at the gate once: the units of work, the calls that wait for it, and the call
that stops all work, which holds it. -/
structure Contest (g : Gate Ticket) (tickets : Nat) (units : List Ticket)
    (atGate pausing : List (Call ι)) : Prop where
  lined : g.Lined tickets
  contends : g.standing.Perm (units ++ (atGate ++ pausing).map (·.ticket))
  waits : ∀ c ∈ atGate, c.command.pauses = true
  holds : ∀ c ∈ pausing, g.holder = some c.ticket

namespace Contest

variable {g : Gate Ticket} {tickets : Nat} {units : List Ticket} {atGate pausing : List (Call ι)}

theorem nodup (contest : Contest g tickets units atGate pausing) :
    (units ++ (atGate ++ pausing).map (·.ticket)).Nodup :=
  contest.contends.nodup_iff.mp contest.lined.distinct

/-- While a unit of work holds the gate, nothing is under way that stops all work. -/
theorem pausing_eq_nil (contest : Contest g tickets units atGate pausing) {unit : Ticket}
    (here : unit ∈ units) (held : g.holder = some unit) : pausing = [] := by
  rw [List.eq_nil_iff_forall_not_mem]
  intro c member
  have same : unit = c.ticket := Option.some.inj (held.symm.trans (contest.holds c member))
  refine List.disjoint_of_nodup_append contest.nodup here ?_
  rw [same]
  exact List.mem_map_of_mem (List.mem_append_right _ member)

/-- While a command is under way that stops all work, it is the only one. -/
theorem pausing_eq (contest : Contest g tickets units atGate pausing) {c : Call ι}
    (member : c ∈ pausing) : pausing = [c] := by
  have distinct : (pausing.map (·.ticket)).Nodup := by
    have nodup := (List.nodup_append.mp contest.nodup).2.1
    rw [List.map_append] at nodup
    exact (List.nodup_append.mp nodup).2.1
  have same : ∀ d ∈ pausing, d.ticket = c.ticket := fun d other =>
    Option.some.inj ((contest.holds d other).symm.trans (contest.holds c member))
  cases pausing with
  | nil => contradiction
  | cons d rest =>
    cases rest with
    | nil => rw [List.mem_singleton.mp member]
    | cons e rest => simp [same d (by simp), same e (by simp)] at distinct

theorem succ (contest : Contest g tickets units atGate pausing) :
    Contest g (tickets + 1) units atGate pausing :=
  { contest with lined := contest.lined.succ }

theorem enter (contest : Contest g tickets units atGate pausing) :
    Contest (g.enter tickets) (tickets + 1) (units ++ [tickets]) atGate pausing where
  lined := contest.lined.enter
  contends := by
    rw [Gate.standing_enter contest.lined.sound, List.append_assoc]
    refine (contest.contends.append_right _).trans ?_
    rw [List.append_assoc]
    exact List.perm_append_comm.append_left units
  waits := contest.waits
  holds c member := Gate.holder_enter (contest.holds c member) tickets

theorem wait (contest : Contest g tickets units atGate pausing) {c : Command ι}
    (pauses : c.pauses = true) :
    Contest (g.enter tickets) (tickets + 1) units (atGate ++ [⟨tickets, c⟩]) pausing where
  lined := contest.lined.enter
  contends := by
    rw [Gate.standing_enter contest.lined.sound]
    refine (contest.contends.append_right _).trans ?_
    simp only [List.map_append, List.append_assoc, List.map_singleton]
    exact (List.perm_append_comm.append_left _).append_left units
  waits := by
    intro d member
    obtain member | new := List.mem_append.mp member
    · exact contest.waits d member
    · rw [List.mem_singleton.mp new]
      exact pauses
  holds d member := Gate.holder_enter (contest.holds d member) tickets

theorem leave (contest : Contest g tickets units atGate pausing) {unit : Ticket}
    (here : unit ∈ units) (held : g.holder = some unit) :
    Contest (g.release unit) tickets (units.filter (· ≠ unit)) atGate pausing where
  lined := contest.lined.release held
  contends := by
    have distinct : (units.map id).Nodup := by
      rw [List.map_id]
      exact (List.nodup_append.mp contest.nodup).1
    refine List.Perm.cons_inv (a := unit) ?_
    rw [← Gate.standing_release held]
    exact contest.contends.trans ((perm_filter_ne here distinct).append_right _)
  waits := contest.waits
  holds c member := by
    rw [contest.pausing_eq_nil here held] at member
    contradiction

theorem pass (contest : Contest g tickets units atGate pausing) {c : Call ι} (waits : c ∈ atGate)
    (held : g.holder = some c.ticket) :
    Contest g tickets units (atGate.filter (·.ticket ≠ c.ticket)) (pausing ++ [c]) where
  lined := contest.lined
  contends := by
    have distinct : (atGate.map (·.ticket)).Nodup := by
      have nodup := (List.nodup_append.mp contest.nodup).2.1
      rw [List.map_append] at nodup
      exact (List.nodup_append.mp nodup).1
    refine contest.contends.trans (.append_left units (.map _ ?_))
    rw [← List.append_assoc]
    exact ((perm_filter_ne waits distinct).append_right pausing).trans
      (List.perm_append_singleton c _).symm
  waits d member := contest.waits d (List.mem_filter.mp member).1
  holds d member := by
    obtain member | new := List.mem_append.mp member
    · exact contest.holds d member
    · rw [List.mem_singleton.mp new]
      exact held

theorem release {c : Call ι} (contest : Contest g tickets units atGate (c :: pausing)) :
    Contest (g.release c.ticket) tickets units atGate pausing where
  lined := contest.lined.release (contest.holds c List.mem_cons_self)
  contends := by
    refine List.Perm.cons_inv (a := c.ticket) ?_
    rw [← Gate.standing_release (contest.holds c List.mem_cons_self)]
    refine contest.contends.trans ?_
    simp only [List.map_append, List.map_cons, ← List.append_assoc]
    exact List.perm_middle
  waits := contest.waits
  holds d member := by
    have alone := contest.pausing_eq (c := c) List.mem_cons_self
    rw [(List.cons.inj alone).2] at member
    contradiction

end Contest

/-! ## What is under way -/

/-- The call that is carried out, until the gate was given back. -/
def Task.unfinished (t : Task ι) : List (Call ι) :=
  match t.stage with
  | .released _ => []
  | _ => [t.call]

theorem Task.unfinished_of_under (t : Task ι) (under : t.stage.result? = none) :
    t.unfinished = [t.call] := by
  obtain ⟨c, draw, stage⟩ := t
  cases stage <;> first | rfl | cases under

theorem Task.unfinished_next [DecidableEq ι] [Checkpointable σ] {t : Task ι} {stage : Stage ι}
    {s s' : Service ι} {w w' : World ι σ}
    (advances : Stage.Advances t.call.command t.draw s w t.stage stage s' w') :
    Task.unfinished { t with stage } = [t.call] := by
  obtain more | ⟨result, rfl⟩ := advances.performed_or_under
  · exact Task.unfinished_of_under _ more
  · rfl

/-- The calls that were sent and are not yet finished, in the order in which they are carried out. -/
def underway (p : Site ι σ) : List (Call ι) :=
  p.task.toList.flatMap Task.unfinished ++ p.actor.queue ++ p.actor.sending

def gate (p : Site ι σ) : Gate Ticket := p.world.gates p.actor.service.gate

theorem gate_perform [DecidableEq ι] [Checkpointable σ] {t : Task ι} {stage : Stage ι}
    {s : Service ι} {w : World ι σ}
    (advances : Stage.Advances t.call.command t.draw p.actor.service p.world t.stage stage s w) :
    w.gates s.gate = p.gate := by
  have same : s.gate = p.actor.service.gate := congrArg (·.2.2.1) advances.fixed
  rw [advances.gates, same, gate]

/-- The commands under way that stop all work. -/
def pausing (p : Site ι σ) : List (Call ι) := p.underway.filter (·.command.pauses)

theorem pausing_task {t : Task ι} (at_ : p.task = some t) (unfinished : t.unfinished = [t.call])
    (stops : t.call.command.pauses = true) :
    p.pausing = t.call :: (p.actor.queue ++ p.actor.sending).filter (·.command.pauses) := by
  simp [pausing, underway, at_, unfinished, stops]

/-- An actor that runs, and the order at its gate. -/
structure Orderly (p : Site ι σ) : Prop where
  running : p.actor.running = true
  room : 0 < p.actor.capacity
  suits : ∀ t ∈ p.task, t.stage.Suits t.call.command
  contest : Contest p.gate p.tickets p.units p.actor.atGate p.pausing

namespace Orderly

variable [DecidableEq ι] [Checkpointable σ] {m : Move ι σ}

omit [DecidableEq ι] [Checkpointable σ] in
/-- Nothing counts for the order but the gate and what stands at it. -/
theorem congr (ordered : Orderly p) (suits : ∀ t ∈ q.task, t.stage.Suits t.call.command)
    (running : q.actor.running = p.actor.running)
    (capacity : q.actor.capacity = p.actor.capacity) (gate : q.gate = p.gate)
    (tickets : q.tickets = p.tickets) (units : q.units = p.units)
    (atGate : q.actor.atGate = p.actor.atGate) (underway : q.underway = p.underway) :
    Orderly q := by
  constructor
  · rw [running]
    exact ordered.running
  · rw [capacity]
    exact ordered.room
  · exact suits
  · rw [gate, tickets, units, atGate, pausing, underway]
    exact ordered.contest

theorem acts (ordered : Orderly p) (acted : Acts p m q) : Orderly q := by
  have contest := ordered.contest
  cases acted with
  | enter =>
    refine ⟨ordered.running, ordered.room, ordered.suits, ?_⟩
    simpa [gate, pausing, underway] using contest.enter
  | change here holds handle f => exact ⟨ordered.running, ordered.room, ordered.suits, contest⟩
  | ask here holds free | send free =>
    refine ⟨ordered.running, ordered.room, ordered.suits, ?_⟩
    simpa [gate, pausing, underway, free] using contest.succ
  | leave here holds answered =>
    refine ⟨ordered.running, ordered.room, ordered.suits, ?_⟩
    simpa [gate, pausing, underway] using contest.leave here holds
  | wait pauses =>
    refine ⟨ordered.running, ordered.room, ordered.suits, ?_⟩
    simpa [gate, pausing, underway] using contest.wait pauses
  | pass waits holds =>
    refine ⟨ordered.running, ordered.room, ordered.suits, ?_⟩
    simpa [gate, pausing, underway, contest.waits _ waits] using contest.pass waits holds
  | accept first room =>
    exact ordered.congr ordered.suits rfl rfl rfl rfl rfl rfl (by simp [underway, first])
  | begin idle first draw =>
    refine ordered.congr (by simp [Stage.Suits]) rfl rfl rfl rfl rfl rfl ?_
    simp [underway, idle, first, Task.unfinished]
  | @perform t at_ stage s w advances =>
    refine ordered.congr ?_ rfl rfl ?_ rfl rfl rfl ?_
    · rintro _ ⟨rfl⟩
      exact advances.suits (ordered.suits t at_)
    · exact gate_perform advances
    · simp [underway, at_, t.unfinished_of_under advances.under, Task.unfinished_next advances]
  | publish at_ | answer at_ =>
    refine ordered.congr (by simp [Stage.Suits]) rfl rfl rfl rfl rfl rfl ?_
    simp [underway, at_, Task.unfinished]
  | @release c _ _ at_ =>
    refine ⟨ordered.running, ordered.room, by simp [Stage.Suits], ?_⟩
    cases stops : c.command.pauses with
    | true =>
      rw [pausing_task at_ rfl stops] at contest
      simpa [gate, pausing, underway, Actor.letGo, stops, Task.unfinished] using contest.release
    | false =>
      simpa [gate, pausing, underway, at_, Actor.letGo, stops, Task.unfinished] using contest

theorem step? (ordered : Orderly p) (stepped : p.step? m = some q) : Orderly q := by
  obtain ⟨after, acted, rfl⟩ := Option.map_eq_some_iff.mp stepped
  have kept := ordered.acts (acts_of_act? ordered.running acted)
  exact kept.congr kept.suits rfl rfl rfl rfl rfl rfl rfl

omit [DecidableEq ι] [Checkpointable σ] in
theorem start {service : Service ι} {world : World ι σ} (free : world.gates service.gate = .free)
    (buffer : Nat) : Orderly (.start service buffer world) where
  running := rfl
  suits := nofun
  room := Nat.lt_of_lt_of_le Nat.zero_lt_one (Nat.le_max_right buffer 1)
  contest := by
    have gate : Site.gate (.start service buffer world) = .free := free
    rw [gate]
    exact ⟨⟨fun _ => rfl, .nil, List.forall_mem_nil _⟩, .nil, List.forall_mem_nil _,
      List.forall_mem_nil _⟩

end Orderly

end Site

end Rollback
