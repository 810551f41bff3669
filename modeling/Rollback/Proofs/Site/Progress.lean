import Rollback.Proofs.Site.Order
import Rollback.Snapshot.Cell

/-!
# A site comes to rest

Whoever holds the gate waits for nothing but the actor, and the actor waits for nobody. So whenever
anything is left to do, the gate, the queue, the actor or the unit of work that holds the gate can go
on without anybody else (`exists_inner`), and after finitely many such moves nothing is left
(`effort_lt`, `exists_rest`).
-/

namespace Rollback

theorem Actor.isSome_reply? {ι : Type} {a : Actor ι} {t : Ticket} :
    (a.reply? t).isSome ↔ t ∈ a.replies.map (·.1) := by
  rw [reply?]
  induction a.replies with
  | nil => simp
  | cons first rest ih =>
    obtain ⟨u, result⟩ := first
    rw [List.lookup_cons, List.map_cons, List.mem_cons]
    by_cases same : t = u
    · simp [same]
    · rw [beq_false_of_ne same]
      exact ih.trans (or_iff_right same).symm

namespace Site

variable {ι σ : Type}

/-- A step of the queue or of the actor. -/
def Move.isServing : Move ι σ → Bool
  | accept | begin _ | advance => true
  | _ => false

/-- A step of the gate, the queue, the actor, or the unit of work that holds the gate. -/
def Move.isInner : Move ι σ → Bool
  | pass | leave _ => true
  | m => m.isServing

/-- Somebody is at the gate, a command is on its way, or a call has not returned. -/
def Pending (p : Site ι σ) : Prop :=
  p.gate.standing ≠ [] ∨ p.actor.sending ≠ [] ∨ p.actor.queue ≠ [] ∨ p.task ≠ none ∨
    ∃ call ∈ p.calls, p.actor.reply? call.1 = none

variable {p q : Site ι σ} {t : Ticket} {caller : Option Ticket}

/-! ## Calls that have not returned -/

/-- The calls that return when the queue and the actor go on. -/
def owed (p : Site ι σ) : List (Call ι) :=
  p.actor.sending ++
    (p.task.toList.map (·.call) ++ p.actor.queue).filter (·.command.answers)

/-- A call has returned or is somewhere on its way; one of a unit of work has passed the gate. -/
def Stands (p : Site ι σ) (t : Ticket) (caller : Option Ticket) : Prop :=
  (p.actor.reply? t).isSome ∨ (caller = none ∧ ∃ c ∈ p.actor.atGate, c.ticket = t) ∨
    ∃ c ∈ p.owed, c.ticket = t

variable [DecidableEq ι] [Checkpointable σ] {m : Move ι σ}

namespace Stands

omit [DecidableEq ι] [Checkpointable σ] in
theorem of_keeps (stands : Stands p t caller) (replies : p.actor.replies ⊆ q.actor.replies)
    (atGate : ∀ c ∈ p.actor.atGate, c ∈ q.actor.atGate ∨ ∃ d ∈ q.owed, d.ticket = c.ticket)
    (owed : ∀ c ∈ p.owed, c ∈ q.owed ∨ ∃ r, (c.ticket, r) ∈ q.actor.replies) :
    Stands q t caller := by
  obtain returned | ⟨other, c, waits, rfl⟩ | ⟨c, waits, rfl⟩ := stands
  · rw [Actor.isSome_reply?] at returned
    exact Or.inl (Actor.isSome_reply?.mpr (List.map_subset _ replies returned))
  · obtain stays | passed := atGate c waits
    · exact Or.inr (Or.inl ⟨other, c, stays, rfl⟩)
    · exact Or.inr (Or.inr passed)
  · obtain stays | ⟨r, replied⟩ := owed c waits
    · exact Or.inr (Or.inr ⟨c, stays, rfl⟩)
    · exact Or.inl (Actor.isSome_reply?.mpr (List.mem_map_of_mem replied))

/-- No move loses a call. -/
theorem acts (stands : Stands p t caller) (acted : Acts p m q) : Stands q t caller := by
  have stays : ∀ c ∈ p.actor.atGate, c ∈ p.actor.atGate ∨ ∃ d ∈ q.owed, d.ticket = c.ticket :=
    fun _ waits => Or.inl waits
  cases acted with
  | enter | change _ _ _ _ | leave _ _ _ => exact stands
  | ask _ _ _ | send _ =>
    refine stands.of_keeps (List.Subset.refl _) stays fun d waits => Or.inl ?_
    simp only [owed, List.mem_append] at waits ⊢
    exact waits.imp_left Or.inl
  | wait _ =>
    exact stands.of_keeps (List.Subset.refl _) (fun d waits => Or.inl (List.mem_append_left _ waits))
      fun d waits => Or.inl waits
  | @pass c _ _ =>
    refine stands.of_keeps (List.Subset.refl _) (fun d waits => ?_) fun d waits => Or.inl ?_
    · by_cases same : d.ticket = c.ticket
      · exact Or.inr ⟨c, by simp [owed], same.symm⟩
      · exact Or.inl (List.mem_filter.mpr ⟨waits, decide_eq_true same⟩)
    · simp only [owed, List.mem_append] at waits ⊢
      exact waits.imp_left Or.inl
  | @accept c rest first _ =>
    refine stands.of_keeps (List.subset_append_left _ _) stays fun d waits => ?_
    simp only [owed, first, List.mem_append, List.mem_cons, List.filter_append] at waits
    obtain (rfl | sending) | taken := waits
    · cases answers : d.command.answers with
      | true => exact Or.inl (by simp [owed, answers])
      | false => exact Or.inr ⟨.ok .done, by simp⟩
    · exact Or.inl (List.mem_append_left _ sending)
    · refine Or.inl (List.mem_append_right _ ?_)
      rw [← List.append_assoc, List.filter_append, List.filter_append]
      exact List.mem_append_left _ (List.mem_append.mpr taken)
  | begin idle first _ =>
    refine stands.of_keeps (List.Subset.refl _) stays fun d waits => Or.inl ?_
    simpa [owed, idle, first] using waits
  | perform at_ _ | publish at_ | release at_ =>
    refine stands.of_keeps (List.Subset.refl _) stays fun d waits => Or.inl ?_
    simpa [owed, at_] using waits
  | @answer c _ result at_ =>
    refine stands.of_keeps (List.subset_append_left _ _) stays fun d waits => ?_
    simp only [owed, at_, Option.toList_some, List.map_singleton, List.mem_append, List.mem_filter,
      List.mem_singleton] at waits
    obtain sending | ⟨rfl | queued, answers⟩ := waits
    · exact Or.inl (List.mem_append_left _ sending)
    · exact Or.inr ⟨result, by simp [answers]⟩
    · exact Or.inl (List.mem_append_right _ (List.mem_filter.mpr ⟨queued, answers⟩))

end Stands

/-- No call that was made is lost. -/
def Traced (p : Site ι σ) : Prop := ∀ call ∈ p.calls, Stands p call.1 call.2

theorem Traced.acts (traced : Traced p) (acted : Acts p m q) : Traced q := by
  intro call member
  have old : call ∈ p.calls → Stands q call.1 call.2 := fun old => (traced call old).acts acted
  cases acted with
  | @ask _ _ _ c _ | @send c _ =>
    obtain member | new := List.mem_append.mp member
    · exact old member
    · rw [List.mem_singleton.mp new]
      exact Or.inr (Or.inr ⟨⟨p.tickets, c⟩, by simp [owed], rfl⟩)
  | @wait c _ =>
    obtain member | new := List.mem_append.mp member
    · exact old member
    · rw [List.mem_singleton.mp new]
      exact Or.inr (Or.inl ⟨rfl, ⟨p.tickets, c⟩, by simp, rfl⟩)
  | enter | change _ _ _ _ | leave _ _ _ | pass _ _ | accept _ _ | begin _ _ _ | perform _ _
  | publish _ | release _ | answer _ => exact old member

theorem Traced.step? (traced : Traced p) (ordered : Orderly p) (stepped : p.step? m = some q) :
    Traced q := by
  obtain ⟨after, acted, rfl⟩ := Option.map_eq_some_iff.mp stepped
  have kept : Traced after := traced.acts (acts_of_act? ordered.running acted)
  exact kept

/-! ## Moves that can be made -/

/-- If a command is on its way behind the gate, the queue or the actor can go on. -/
theorem exists_serving (room : 0 < p.actor.capacity)
    (waits : p.actor.sending ≠ [] ∨ p.actor.queue ≠ [] ∨ p.task ≠ none) :
    ∃ m : Move ι σ, m.isServing ∧ (p.step? m).isSome := by
  cases at_ : p.task with
  | some t => exact ⟨.advance, rfl, by simp [step?, act?, at_]⟩
  | none =>
    cases queue : p.actor.queue with
    | cons c rest => exact ⟨.begin ⟨.nil, .epoch⟩, rfl, by simp [step?, act?, at_, queue]⟩
    | nil =>
      cases sending : p.actor.sending with
      | cons c rest =>
        exact ⟨.accept, rfl, by simp [step?, act?, Actor.accept?, sending, queue, room]⟩
      | nil => simp [at_, queue, sending] at waits

omit [DecidableEq ι] [Checkpointable σ] in
/-- While the unit of work that holds the gate waits for a call, a command is on its way. -/
theorem owed_ne_nil (traced : Traced p) {unit : Ticket} (waits : p.answered unit = false) :
    p.owed ≠ [] := by
  intro nothing
  rw [answered, List.all_eq_false] at waits
  obtain ⟨⟨t, caller⟩, member, open_⟩ := waits
  obtain ⟨rfl, unreturned⟩ : caller = some unit ∧ (p.actor.reply? t).isSome = false := by
    simpa using open_
  obtain returned | ⟨other, _⟩ | ⟨c, owed, _⟩ := traced _ member
  · rw [unreturned] at returned
    contradiction
  · contradiction
  · rw [nothing] at owed
    contradiction

omit [DecidableEq ι] [Checkpointable σ] in
theorem owed_eq_nil (sending : p.actor.sending = []) (queue : p.actor.queue = [])
    (idle : p.task = none) : p.owed = [] := by
  simp [owed, sending, queue, idle]

/-- Whatever is left to do, some of it can be done without anybody else. -/
theorem exists_inner (ordered : Orderly p) (traced : Traced p) (pending : p.Pending) :
    ∃ m : Move ι σ, m.isInner ∧ (p.step? m).isSome := by
  by_cases served : p.actor.sending = [] ∧ p.actor.queue = [] ∧ p.task = none
  · obtain ⟨sending, queue, idle⟩ := served
    have nothing : p.owed = [] := owed_eq_nil sending queue idle
    have free : p.pausing = [] := by simp [pausing, underway, sending, queue, idle]
    have contends := ordered.contest.contends
    rw [free, List.append_nil] at contends
    have crowded : p.gate.standing ≠ [] := by
      obtain crowded | busy | busy | busy | ⟨call, member, unreturned⟩ := pending
      · exact crowded
      · exact absurd sending busy
      · exact absurd queue busy
      · exact absurd idle busy
      · obtain returned | ⟨_, c, waits, _⟩ | ⟨c, owed, _⟩ := traced call member
        · rw [unreturned] at returned
          contradiction
        · intro empty
          rw [empty, List.nil_perm, List.append_eq_nil_iff, List.map_eq_nil_iff] at contends
          rw [contends.2] at waits
          contradiction
        · rw [nothing] at owed
          contradiction
    obtain ⟨t, rest, stands⟩ := List.exists_cons_of_ne_nil crowded
    have holds : p.holder = some t := by
      have first := Gate.head?_standing ordered.contest.lined.sound
      rw [stands] at first
      exact first.symm
    have member : t ∈ p.units ++ p.actor.atGate.map (·.ticket) :=
      contends.mem_iff.mp (stands ▸ List.mem_cons_self)
    obtain here | waits := List.mem_append.mp member
    · have answered : p.answered t = true := by
        by_contra waits
        exact owed_ne_nil traced (Bool.not_eq_true _ ▸ waits) nothing
      exact ⟨.leave t, rfl, by simp [step?, act?, here, holds, answered]⟩
    · obtain ⟨c, calls, rfl⟩ := List.mem_map.mp waits
      have found : (p.actor.atGate.find? (p.actor.hasGate p.world)).isSome :=
        List.find?_isSome.mpr ⟨c, calls, decide_eq_true holds⟩
      exact ⟨.pass, rfl, by simpa [step?, act?, Actor.pass?] using found⟩
  · obtain ⟨m, serving, enabled⟩ := exists_serving ordered.room (by tauto)
    exact ⟨m, by cases m <;> first | exact serving | rfl, enabled⟩

/-! ## How much is left -/

/-- How many inner moves are left at most, and how far the actor is with its command. -/
def effort (p : Site ι σ) : Nat × Nat × Nat :=
  (p.units.length + p.actor.load, (p.task.map (·.stage.rank)).getD (0, 0))

theorem effort_lt (inner : m.isInner) (acted : Acts p m q) :
    Prod.Lex (· < ·) (Prod.Lex (· < ·) (· < ·)) q.effort p.effort := by
  cases acted with
  | enter | change _ _ _ _ | ask _ _ _ | wait _ | send _ => contradiction
  | leave here _ _ =>
    refine .left _ _ (Nat.add_lt_add_right ?_ _)
    exact List.length_filter_lt_length_iff_exists.mpr ⟨_, here, by simp⟩
  | @pass c waits _ =>
    have fewer : (p.actor.atGate.filter (·.ticket ≠ c.ticket)).length < p.actor.atGate.length :=
      List.length_filter_lt_length_iff_exists.mpr ⟨c, waits, by simp⟩
    refine .left _ _ ?_
    simp only [Actor.load, List.length_append, List.length_singleton]
    omega
  | accept first _ =>
    refine .left _ _ ?_
    simp only [Actor.load, first, List.length_cons, List.length_append, List.length_nil]
    omega
  | begin _ first _ =>
    refine .left _ _ ?_
    simp [Actor.load, first]
  | perform at_ advances =>
    simp only [effort, at_, Option.map_some, Option.getD_some]
    exact .right _ advances.rank_lt
  | publish at_ | release at_ | answer at_ =>
    simp only [effort, at_, Option.map_some, Option.getD_some]
    exact .right _ (.left _ _ (by decide))

/-- Left alone, a site comes to rest. -/
theorem exists_rest (p : Site ι σ) (ordered : Orderly p) (traced : Traced p) : ∃ moves q,
    (∀ m ∈ moves, m.isInner) ∧ p.run? moves = some q ∧ ¬ q.Pending := by
  by_cases pending : p.Pending
  · obtain ⟨m, inner, enabled⟩ := exists_inner ordered traced pending
    obtain ⟨q, stepped⟩ := Option.isSome_iff_exists.mp enabled
    obtain ⟨moves, rest, inners, runs, calm⟩ :=
      exists_rest q (ordered.step? stepped) (traced.step? ordered stepped)
    refine ⟨m :: moves, rest, List.forall_mem_cons.mpr ⟨inner, inners⟩, ?_, calm⟩
    rw [run?, List.foldlM_cons, stepped]
    exact runs
  · exact ⟨[], p, List.forall_mem_nil _, rfl, pending⟩
termination_by p.effort
decreasing_by
  obtain ⟨after, acted, rfl⟩ := Option.map_eq_some_iff.mp stepped
  have less := effort_lt inner (acts_of_act? ordered.running acted)
  exact less

/-! ## No deadlock -/

theorem traced_run? {service : Service ι} {buffer : Nat} {world : World ι σ}
    (free : world.gates service.gate = .free) {moves : List (Move ι σ)}
    (reached : (start service buffer world).run? moves = some p) : Orderly p ∧ Traced p := by
  refine run?_keeps (P := fun p => Orderly p ∧ Traced p) (A := fun _ => True) ?_
    ⟨.start free buffer, List.forall_mem_nil _⟩ (fun _ _ => trivial) reached
  rintro p m q ⟨ordered, traced⟩ _ stepped
  exact ⟨ordered.step? stepped, traced.step? ordered stepped⟩

/-- Whenever something is left to do, the gate, the queue, the actor or the unit of work that holds
the gate can go on. While that unit waits for the actor, the queue or the actor can; the actor waits
for nobody, as what needs the gate has it. If nobody else comes, all is done in the end. -/
theorem no_deadlock {service : Service ι} {buffer : Nat} {world : World ι σ}
    (free : world.gates service.gate = .free) {moves : List (Move ι σ)}
    (reached : (start service buffer world).run? moves = some p) :
    (p.Pending → ∃ m : Move ι σ, m.isInner ∧ (p.step? m).isSome) ∧
      (∀ unit ∈ p.units, p.holder = some unit → p.answered unit = false →
        ∃ m : Move ι σ, m.isServing ∧ (p.step? m).isSome) ∧
      (p.task ≠ none → (p.step? .advance).isSome) ∧
      (p.task = none → p.actor.queue ≠ [] → ∀ draw, (p.step? (.begin draw)).isSome) ∧
      (∀ c ∈ p.underway, c.command.pauses = true → p.holder = some c.ticket) ∧
      ∃ rest q, (∀ m ∈ rest, m.isInner) ∧ p.run? rest = some q ∧ ¬ q.Pending := by
  obtain ⟨ordered, traced⟩ := traced_run? free reached
  refine ⟨exists_inner ordered traced, ?_, ?_, ?_, ?_, exists_rest p ordered traced⟩
  · intro unit _ _ waits
    refine exists_serving ordered.room ?_
    by_contra calm
    have nothing : p.owed = [] := by
      obtain ⟨sending, queue, idle⟩ : p.actor.sending = [] ∧ p.actor.queue = [] ∧ p.task = none := by
        tauto
      exact owed_eq_nil sending queue idle
    exact owed_ne_nil traced waits nothing
  · intro busy
    obtain ⟨t, at_⟩ := Option.ne_none_iff_exists'.mp busy
    simp [step?, act?, at_]
  · intro idle busy draw
    obtain ⟨c, rest, queue⟩ := List.exists_cons_of_ne_nil busy
    simp [step?, act?, idle, queue]
  · intro c member stops
    exact ordered.contest.holds c (List.mem_filter.mpr ⟨member, stops⟩)

/-- A unit of work holds the gate and waits for a place in the queue, and a checkpoint waits for the
gate. -/
theorem no_deadlock_fullQueue :
    let moves := [.enter, .call .take, .call .clear, .accept, .ask 0 (.update "billing" .nil)]
    ∃ p : Site Empty Cell, (start (.new "orders" 0 0) 0 .initial).run? moves = some p ∧
      p.holder = some 0 ∧ p.answered 0 = false ∧ p.actor.accept?.isNone ∧
      ∃ m : Move Empty Cell, m.isServing ∧ (p.step? m).isSome := by
  intro moves
  refine ⟨_, rfl, rfl, rfl, rfl, ?_⟩
  have calm := @no_deadlock Empty Cell _ _ _ (.new "orders" 0 0) 0 .initial rfl moves rfl
  exact calm.2.1 0 List.mem_cons_self rfl rfl

end Site

end Rollback
