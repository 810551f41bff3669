import Rollback.Proofs.Site.Schedule
import Rollback.Snapshot.Cell

/-!
# A site does one thing after the other

Units of work tell the actor of others while its queue still holds what was told before, and objects
change while checkpoints are called for. Still all that is stored, and all objects, are what comes of
whole units of work and whole operations, one after the other as they got the gate
(`serial_of_run?`). What is told is heard before an operation, as the operation is sent behind it
(`Closing`); so at each stage an operation ends as it does in the serial execution (`Mirrors`).
-/

namespace Rollback

/-- How a command ends does not depend on who stands at a gate. -/
theorem Site.Stage.finish_regate {ι σ : Type} [DecidableEq ι] [Checkpointable σ] (s : Service ι)
    (w : World ι σ) (gates : GateId → Gate Ticket) (stage : Stage ι) (c : Command ι) (draw : Draw) :
    stage.finish c draw s { w with gates } = World.regate gates (stage.finish c draw s w) := by
  cases stage with
  | begun => exact c.run_regate s w gates s.gate draw.fresh draw.now
  | capturing done left =>
    simp only [finish]
    split
    · rfl
    · rw [s.deposit_regate]
      rfl
  | overwriting id k left =>
    simp only [finish]
    split <;> rfl
  | performed _ | published _ | released _ => rfl

namespace Command

variable {ι σ : Type} {c : Command ι}

/-- The service after it was told of others. -/
def heard (c : Command ι) (s : Service ι) : Service ι :=
  match c with
  | update peer id => s.update peer id
  | receive peer tag => s.receive peer tag
  | _ => s

theorem heard_of_pauses (pauses : c.pauses = true) (s : Service ι) : c.heard s = s := by
  cases c <;> first | rfl | contradiction

variable [DecidableEq ι] [Checkpointable σ]

theorem run_heard (tells : c.answers = false) (s : Service ι) (w : World ι σ) (token : GateId)
    (fresh : CheckpointId) (now : Instant) :
    c.run s w token fresh now = (.ok .done, c.heard s, w) := by
  cases c <;> first | rfl | contradiction

end Command

namespace Site

variable {ι σ : Type}

/-- Every unit of work tells the actor of others, and everybody else calls for checkpoints and
restores. -/
def Move.InProtocol : Move ι σ → Prop
  | ask _ c => c.answers = false
  | call c => c.pauses = true
  | _ => True

section Replay

variable [DecidableEq ι] [Checkpointable σ]

/-- What comes of a deed if nobody interferes. -/
def Deed.perform (x : Service ι × World ι σ) : Deed ι σ → Service ι × World ι σ
  | changed handle f => (x.1, x.2.setObject handle (f (x.2.objects handle)))
  | told c => (c.run x.1 x.2 x.1.gate .nil .epoch).2
  | operated c draw _ => (c.run x.1 x.2 x.1.gate draw.fresh draw.now).2

/-- One deed after the other. -/
def replay (before : Service ι × World ι σ) (deeds : List (Deed ι σ)) : Service ι × World ι σ :=
  deeds.foldl Deed.perform before

/-- Every operation came out as it does when one deed is done after the other. -/
def Faithful (before : Service ι × World ι σ) (deeds : List (Deed ι σ)) : Prop :=
  ∀ front c draw result back, deeds = front ++ .operated c draw result :: back →
    result = (c.run (replay before front).1 (replay before front).2 (replay before front).1.gate
      draw.fresh draw.now).1

variable {before : Service ι × World ι σ} {deeds : List (Deed ι σ)} {d : Deed ι σ}

theorem replay_concat (before : Service ι × World ι σ) (deeds : List (Deed ι σ)) (d : Deed ι σ) :
    replay before (deeds ++ [d]) = d.perform (replay before deeds) := by
  rw [replay, List.foldl_concat, replay]

theorem Faithful.concat (faithful : Faithful before deeds)
    (agrees : ∀ c draw result, d = .operated c draw result →
      result = (c.run (replay before deeds).1 (replay before deeds).2 (replay before deeds).1.gate
        draw.fresh draw.now).1) : Faithful before (deeds ++ [d]) := by
  intro front c draw result back split
  obtain rfl | ⟨back, last, rfl⟩ := List.eq_nil_or_concat back
  · obtain ⟨rfl, same⟩ := List.append_inj' split rfl
    exact agrees c draw result (List.singleton_inj.mp same)
  · rw [List.concat_eq_append, ← List.cons_append, ← List.append_assoc] at split
    exact faithful front c draw result back (List.append_inj' split rfl).1

theorem Faithful.concat_part (faithful : Faithful before deeds) (part : d.isOperation = false) :
    Faithful before (deeds ++ [d]) := by
  refine faithful.concat fun c draw result same => ?_
  rw [same] at part
  contradiction

end Replay

/-! ## The site and its serial execution -/

variable {p q : Site ι σ}

/-- The service once it was told all that is on its way to it. -/
def awaited (p : Site ι σ) : Service ι :=
  p.unperformed.foldl (fun s c => c.command.heard s) p.actor.service

/-- Nothing comes behind a command that stops all work. -/
def Closing (p : Site ι σ) : Prop := p.underway.Pairwise fun c _ => c.command.pauses = false

theorem Closing.concat (closing : Closing p) (free : p.pausing = []) {c : Call ι}
    (sent : q.underway = p.underway ++ [c]) : Closing q := by
  rw [Closing, sent, List.pairwise_append]
  refine ⟨closing, List.pairwise_singleton _ _, fun d member _ _ => ?_⟩
  exact Bool.eq_false_iff.mpr fun stops =>
    List.ne_nil_of_mem (List.mem_filter.mpr ⟨member, stops⟩) free

variable [DecidableEq ι] [Checkpointable σ] {m : Move ι σ} {before : Service ι × World ι σ}

theorem Closing.acts (closing : Closing p) (ordered : Orderly p) (protocol : m.InProtocol)
    (acted : Acts p m q) : Closing q := by
  cases acted with
  | enter | change _ _ _ _ | leave _ _ _ | wait _ => exact closing
  | send free =>
    rw [Move.InProtocol, free] at protocol
    contradiction
  | ask here holds _ =>
    exact closing.concat (ordered.contest.pausing_eq_nil here holds) (List.append_assoc _ _ _).symm
  | @pass c waits holds =>
    have alone : p.pausing ++ [c] = [] ++ [c] :=
      (ordered.contest.pass waits holds).pausing_eq (List.mem_append_right _ List.mem_cons_self)
    exact closing.concat (List.append_cancel_right alone) (List.append_assoc _ _ _).symm
  | accept first _ => simpa [Closing, underway, first] using closing
  | begin idle first _ => simpa [Closing, underway, idle, first, Task.unfinished] using closing
  | @perform t at_ _ _ _ advances =>
    simpa [Closing, underway, at_, t.unfinished_of_under advances.under,
      Task.unfinished_next advances] using closing
  | publish at_ | answer at_ => simpa [Closing, underway, at_, Task.unfinished] using closing
  | release at_ =>
    rw [Closing, underway, at_] at closing
    exact closing.tail

/-- The site as it is, and what comes of the same deeds one after the other. -/
structure Mirrors (before : Service ι × World ι σ) (p : Site ι σ) : Prop where
  awaited : p.awaited = (replay before (done p.log)).1
  stores : p.world.stores = (replay before (done p.log)).2.stores
  objects : (∀ t ∈ p.task, t.stage.isOverwriting = false) →
    p.world.objects = (replay before (done p.log)).2.objects
  ends : ∀ t ∈ p.task, t.stage.result? = none → t.call.command.pauses = true →
    t.stage.finish t.call.command t.draw p.actor.service p.world =
      World.regate p.world.gates (t.call.command.run (replay before (done p.log)).1
        (replay before (done p.log)).2 (replay before (done p.log)).1.gate t.draw.fresh t.draw.now)
  faithful : Faithful before (done p.log)

namespace Mirrors

/-- Who stands at the gate does not matter, nor where in the queue the commands are. -/
theorem congr (mirrors : Mirrors before p) (deeds : done q.log = done p.log)
    (awaited : q.awaited = p.awaited) (service : q.actor.service = p.actor.service)
    (objects : q.world.objects = p.world.objects) (stores : q.world.stores = p.world.stores)
    (task : ∀ t ∈ q.task, t.stage.result? = none → t ∈ p.task)
    (overwriting : (∀ t ∈ q.task, t.stage.isOverwriting = false) →
      ∀ t ∈ p.task, t.stage.isOverwriting = false) : Mirrors before q := by
  have world : q.world = { p.world with gates := q.world.gates } := by
    change q.world = ⟨p.world.objects, p.world.stores, q.world.gates⟩
    rw [← objects, ← stores]
  refine ⟨?_, ?_, ?_, ?_, ?_⟩ <;> rw [deeds]
  · exact awaited.trans mirrors.awaited
  · exact stores.trans mirrors.stores
  · exact fun calm => objects.trans (mirrors.objects (overwriting calm))
  · intro t member under stops
    rw [service, world, Stage.finish_regate, mirrors.ends t (task t member under) under stops]
    rfl
  · exact mirrors.faithful

omit [DecidableEq ι] [Checkpointable σ] in
theorem behind_eq_nil (closing : Closing p) {c : Call ι} {rest : List (Call ι)}
    (first : p.underway = c :: rest) (stops : c.command.pauses = true) : rest = [] := by
  rw [Closing, first, List.pairwise_cons] at closing
  refine List.eq_nil_iff_forall_not_mem.mpr fun d member => ?_
  rw [stops] at closing
  exact absurd (closing.1 d member) Bool.noConfusion

omit [DecidableEq ι] [Checkpointable σ] in
/-- While a unit of work holds the gate, no operation is carried out. -/
theorem free_of_holds (ordered : Orderly p) {unit : Ticket} (here : unit ∈ p.units)
    (holds : p.holder = some unit) : ∀ t ∈ p.task, t.stage.result? = none →
      t.call.command.pauses = true → False := by
  intro t at_ under stops
  have member : t.call ∈ p.pausing :=
    pausing_task at_ (t.unfinished_of_under under) stops ▸ List.mem_cons_self
  rw [ordered.contest.pausing_eq_nil here holds] at member
  contradiction

theorem begin (mirrors : Mirrors before p) (closing : Closing p) {c : Call ι} {rest : List (Call ι)}
    (idle : p.task = none) (first : p.actor.queue = c :: rest) (draw : Draw) :
    Mirrors before { p with
      actor := { p.actor with queue := rest }
      task := some ⟨c, draw, .begun⟩ } := by
  have objects := mirrors.objects (by simp [idle])
  refine ⟨?_, mirrors.stores, fun _ => objects, ?_, mirrors.faithful⟩
  · simpa [Site.awaited, unperformed, idle, first, Stage.result?] using mirrors.awaited
  · rintro _ ⟨rfl⟩ _ stops
    have alone : rest ++ p.actor.sending = [] :=
      behind_eq_nil closing (by simp [underway, idle, first]) stops
    have service : p.actor.service = (replay before (done p.log)).1 := by
      have awaited := mirrors.awaited
      rw [Site.awaited, unperformed, idle, first, List.append_assoc, List.cons_append, alone] at awaited
      simpa [Command.heard_of_pauses stops] using awaited
    have world : p.world = { (replay before (done p.log)).2 with gates := p.world.gates } := by
      change p.world = ⟨_, _, p.world.gates⟩
      rw [← objects, ← mirrors.stores]
    refine Eq.trans ?_ (c.command.run_regate _ _ p.world.gates _ _ _)
    rw [← service, ← world]
    rfl

theorem change (mirrors : Mirrors before p) (ordered : Orderly p) {unit : Ticket}
    (here : unit ∈ p.units) (holds : p.holder = some unit) (handle : ι) (f : σ → σ) :
    Mirrors before { p with
      world := p.world.setObject handle (f (p.world.objects handle))
      log := p.log ++ [.did unit (.changed handle f)] } := by
  refine ⟨?_, ?_, ?_, ?_, ?_⟩ <;> simp only [done_did, replay_concat]
  · exact mirrors.awaited
  · exact mirrors.stores
  · intro calm
    simp only [Deed.perform, World.setObject, mirrors.objects calm]
  · exact fun t at_ under stops => (free_of_holds ordered here holds t at_ under stops).elim
  · exact mirrors.faithful.concat_part rfl

theorem ask (mirrors : Mirrors before p) (ordered : Orderly p) {unit : Ticket}
    (here : unit ∈ p.units) (holds : p.holder = some unit) {c : Command ι}
    (tells : c.answers = false) : Mirrors before { p with
      actor := { p.actor with sending := p.actor.sending ++ [⟨p.tickets, c⟩] }
      calls := p.calls ++ [(p.tickets, some unit)]
      tickets := p.tickets + 1
      log := p.log ++ [.did unit (.told c)] } := by
  have performs (x : Service ι × World ι σ) : Deed.perform x (.told c) = (c.heard x.1, x.2) := by
    rw [Deed.perform, Command.run_heard tells]
  refine ⟨?_, ?_, ?_, ?_, ?_⟩ <;> simp only [done_did, replay_concat, performs]
  · rw [← mirrors.awaited]
    simp [Site.awaited, unperformed, List.foldl_append]
  · exact mirrors.stores
  · exact mirrors.objects
  · exact fun t at_ under stops => (free_of_holds ordered here holds t at_ under stops).elim
  · exact mirrors.faithful.concat_part rfl

/-- What is told takes one step. -/
theorem perform_told (mirrors : Mirrors before p) (ordered : Orderly p) {t : Task ι}
    (at_ : p.task = some t) (free : t.call.command.pauses = false)
    (tells : t.call.command.answers = false) {stage : Stage ι} {s : Service ι} {w : World ι σ}
    (advances : Stage.Advances t.call.command t.draw p.actor.service p.world t.stage stage s w) :
    Mirrors before { p with
      actor := { p.actor with service := s }
      world := w
      task := some { t with stage }
      log := p.log ++ t.entries stage } := by
  obtain ⟨begun, result, rfl, runs⟩ := advances.runs_of_free free (ordered.suits t at_)
  have objects := mirrors.objects (by simp [at_, begun, Stage.isOverwriting])
  rw [Command.run_heard tells] at runs
  cases runs
  have logged : p.log ++ (t.entries (.performed (.ok .done)) : List (Entry ι σ)) = p.log := by
    simp [Task.entries, free]
  refine ⟨?_, ?_, ?_, ?_, ?_⟩ <;> simp only [logged]
  · rw [← mirrors.awaited]
    simp [Site.awaited, unperformed, at_, begun, Stage.result?]
  · exact mirrors.stores
  · exact fun _ => objects
  · rintro _ ⟨rfl⟩ performed
    cases performed
  · exact mirrors.faithful

/-- An operation goes on, and comes out as it does alone. -/
theorem perform_operation (mirrors : Mirrors before p) (closing : Closing p) {t : Task ι}
    (at_ : p.task = some t) (stops : t.call.command.pauses = true) {stage : Stage ι} {s : Service ι}
    {w : World ι σ}
    (advances : Stage.Advances t.call.command t.draw p.actor.service p.world t.stage stage s w) :
    Mirrors before { p with
      actor := { p.actor with service := s }
      world := w
      task := some { t with stage }
      log := p.log ++ t.entries stage } := by
  have under := advances.under
  have alone : p.actor.queue ++ p.actor.sending = [] :=
    behind_eq_nil closing (by simp [underway, at_, t.unfinished_of_under under]) stops
  have service : p.actor.service = (replay before (done p.log)).1 := by
    have awaited := mirrors.awaited
    rw [Site.awaited, unperformed, List.append_assoc, alone, at_] at awaited
    simpa [under, Command.heard_of_pauses stops] using awaited
  have ends := mirrors.ends t at_ under stops
  rw [← advances.finish] at ends
  obtain more | ⟨result, rfl⟩ := advances.performed_or_under
  · obtain ⟨rfl, stores, objects⟩ := advances.same more
    have logged : p.log ++ (t.entries stage : List (Entry ι σ)) = p.log := by
      rw [t.entries_of_under more, List.append_nil]
    refine ⟨?_, ?_, ?_, ?_, ?_⟩ <;> simp only [logged]
    · rw [← mirrors.awaited]
      simp [Site.awaited, unperformed, at_, under, more]
    · exact stores.trans mirrors.stores
    · intro calm
      obtain ⟨before, same⟩ := objects.resolve_left (by simp [calm _ rfl])
      refine same.trans (mirrors.objects ?_)
      rw [at_]
      rintro _ ⟨rfl⟩
      exact before
    · rintro _ ⟨rfl⟩ _ _
      rw [advances.gates]
      exact ends
    · exact mirrors.faithful
  · have logged : p.log ++ (t.entries (.performed result) : List (Entry ι σ)) =
        p.log ++ [.did t.call.ticket (.operated t.call.command t.draw result)] := by
      simp [Task.entries, stops]
    simp only [Stage.finish, World.regate, Prod.mk.injEq] at ends
    obtain ⟨came, rfl, rfl⟩ := ends
    refine ⟨?_, ?_, ?_, ?_, ?_⟩ <;> simp only [logged, done_did, replay_concat]
    · rw [Site.awaited, unperformed, List.append_assoc, alone]
      rfl
    · rfl
    · exact fun _ => rfl
    · rintro _ ⟨rfl⟩ performed
      cases performed
    · refine mirrors.faithful.concat ?_
      rintro c draw result' ⟨rfl⟩
      exact came

theorem acts (mirrors : Mirrors before p) (ordered : Orderly p) (closing : Closing p)
    (told : ∀ c ∈ p.afoot, c.command.pauses = true ∨ c.command.answers = false)
    (protocol : m.InProtocol) (acted : Acts p m q) : Mirrors before q := by
  cases acted with
  | enter | leave _ _ _ | wait _ =>
    exact mirrors.congr rfl rfl rfl rfl rfl (fun _ member _ => member) id
  | send free =>
    rw [Move.InProtocol, free] at protocol
    contradiction
  | change here holds handle f => exact mirrors.change ordered here holds handle f
  | ask here holds free => exact mirrors.ask ordered here holds protocol
  | @pass c waits _ =>
    refine mirrors.congr rfl ?_ rfl rfl rfl (fun _ member _ => member) id
    have stops := ordered.contest.waits c waits
    simp [Site.awaited, unperformed, List.foldl_append, Command.heard_of_pauses stops]
  | accept first _ =>
    refine mirrors.congr rfl ?_ rfl rfl rfl (fun _ member _ => member) id
    simp [Site.awaited, unperformed, first]
  | begin idle first draw => exact mirrors.begin closing idle first draw
  | @perform t at_ _ _ _ advances =>
    cases stops : t.call.command.pauses with
    | true => exact mirrors.perform_operation closing at_ stops advances
    | false =>
      have tells := (told t.call (by simp [afoot, at_])).resolve_left (by simp [stops])
      exact mirrors.perform_told ordered at_ stops tells advances
  | publish at_ | answer at_ =>
    refine mirrors.congr rfl ?_ rfl rfl rfl ?_ ?_
    · simp [Site.awaited, unperformed, at_, Stage.result?]
    · simp [Stage.result?]
    · simp [at_, Stage.isOverwriting]
  | @release c _ _ at_ =>
    have same : (p.actor.letGo p.world c).objects = p.world.objects ∧
        (p.actor.letGo p.world c).stores = p.world.stores := by
      unfold Actor.letGo
      split <;> exact ⟨rfl, rfl⟩
    refine mirrors.congr rfl ?_ rfl same.1 same.2 ?_ ?_
    · simp [Site.awaited, unperformed, at_, Stage.result?]
    · simp [Stage.result?]
    · simp [at_, Stage.isOverwriting]

end Mirrors

/-- A site in which everybody keeps to the protocol. -/
structure Serialized (before : Service ι × World ι σ) (p : Site ι σ) : Prop where
  ordered : Orderly p
  scheduled : Scheduled p.gate p.tickets p.log
  whole : Whole p
  closing : Closing p
  told : ∀ c ∈ p.afoot, c.command.pauses = true ∨ c.command.answers = false
  mirrors : Mirrors before p

theorem Serialized.step? (serialized : Serialized before p) (protocol : m.InProtocol)
    (stepped : p.step? m = some q) : Serialized before q := by
  obtain ⟨ordered, scheduled, whole, closing, told, mirrors⟩ := serialized
  have next := ordered.step? stepped
  have turns := scheduled.step? ordered stepped
  have wholes := whole.step? ordered scheduled stepped
  obtain ⟨after, acted, rfl⟩ := Option.map_eq_some_iff.mp stepped
  have acts := acts_of_act? ordered.running acted
  have closes : Closing after := closing.acts ordered protocol acts
  have sends : ∀ c ∈ m.command?, c.pauses = true ∨ c.answers = false := by
    intro c sent
    cases m <;> cases sent
    · exact Or.inr protocol
    · exact Or.inl protocol
  have tells : ∀ c ∈ after.afoot, c.command.pauses = true ∨ c.command.answers = false :=
    afoot_acts told sends acts
  have same := (mirrors.acts ordered closing told protocol acts).congr (q := p.note after)
    (done_note p after) rfl rfl rfl rfl (fun _ member _ => member) id
  exact ⟨next, turns, wholes, closes, tells, same⟩

theorem serialized_run? {service : Service ι} {buffer : Nat} {world : World ι σ}
    (free : world.gates service.gate = .free) {moves : List (Move ι σ)}
    (protocol : ∀ m ∈ moves, m.InProtocol)
    (reached : (start service buffer world).run? moves = some p) :
    Serialized (service, world) p := by
  refine run?_keeps (fun serialized protocol stepped => serialized.step? protocol stepped)
    ⟨.start free buffer, ?_, .start service buffer world, .nil, List.forall_mem_nil _, ?_⟩ protocol
    reached
  · have gate : Site.gate (.start service buffer world) = .free := free
    rw [gate]
    exact .start
  · refine ⟨rfl, rfl, fun _ => rfl, fun t member => absurd member (Option.not_mem_none t), ?_⟩
    intro front _ _ _ _ split
    exact absurd split.symm (List.append_ne_nil_of_right_ne_nil front (List.cons_ne_nil _ _))

/-- While a checkpoint or a restore is on its way or carried out, no unit of work holds the gate, and
no second one is on its way. All that was stored, and all objects unless they are being overwritten,
are what comes of whole units of work and whole operations, one after the other as they got the
gate. Each operation came out as it does then. -/
theorem serial_of_run? {service : Service ι} {buffer : Nat} {world : World ι σ}
    (free : world.gates service.gate = .free) {moves : List (Move ι σ)}
    (protocol : ∀ m ∈ moves, m.InProtocol)
    (reached : (start service buffer world).run? moves = some p) :
    (∀ c ∈ p.underway, c.command.pauses = true → (∀ unit ∈ p.units, p.holder ≠ some unit) ∧
      p.underway.filter (·.command.pauses) = [c]) ∧
    (∀ t, (∀ d ∈ deeds p.log t, d.isOperation = false) ∨
      ∃ c draw result, deeds p.log t = [.operated c draw result]) ∧
    serial p.log = done p.log ∧
    p.world.stores = (replay (service, world) (serial p.log)).2.stores ∧
    ((∀ t ∈ p.task, t.stage.isOverwriting = false) →
      p.world.objects = (replay (service, world) (serial p.log)).2.objects) ∧
    (p.underway = [] → p.actor.service = (replay (service, world) (serial p.log)).1) ∧
    Faithful (service, world) (serial p.log) := by
  obtain ⟨ordered, scheduled, whole, _, _, mirrors⟩ := serialized_run? free protocol reached
  have inOrder := scheduled.serial
  refine ⟨fun c sent stops => ?_, whole.all, inOrder, ?_, ?_, ?_, ?_⟩
  · have member : c ∈ p.pausing := List.mem_filter.mpr ⟨sent, stops⟩
    refine ⟨fun unit here holds => ?_, ordered.contest.pausing_eq member⟩
    rw [ordered.contest.pausing_eq_nil here holds] at member
    contradiction
  · rw [inOrder]
    exact mirrors.stores
  · rw [inOrder]
    exact mirrors.objects
  · intro calm
    have nothing : p.unperformed = [] := List.subset_nil.mp (calm ▸ unperformed_subset)
    have awaited := mirrors.awaited
    rw [Site.awaited, nothing] at awaited
    rw [inOrder]
    exact awaited
  · rw [inOrder]
    exact mirrors.faithful

/-- A unit of work changes an object and tells of a checkpoint of a peer. A checkpoint is called for
meanwhile and taken when that unit has left, and the next unit of work waits behind it. -/
theorem serial_of_run?_checkpoint :
    let tagged : CheckpointId := ⟨3, by decide⟩
    let taken : CheckpointId := ⟨7, by decide⟩
    let service : Service Unit := ((Service.new "orders" 0 0).register "cell" ()).2
    let count : Cell → Cell := fun c =>
      { c with declared := ["n"], fields := c.fields.insert "n" (.bool true) }
    let moves : List (Move Unit Cell) := [.enter, .call .take, .enter, .change 0 () count,
      .ask 0 (.update "billing" tagged), .accept, .leave 0, .pass, .begin ⟨.nil, .epoch⟩, .advance,
      .advance, .advance, .advance, .accept, .begin ⟨taken, .tick .epoch⟩, .advance, .advance,
      .advance, .advance, .advance, .change 2 () count]
    ∃ p, (start service 1 .initial).run? moves = some p ∧ order p.log = [0, 1, 2] ∧
      p.actor.service.last = taken ∧
      p.world.stores = (replay (service, .initial) (serial p.log)).2.stores := by
  intro tagged taken service count moves
  have ran : ((start service 1 .initial).run? moves).any fun p =>
      order p.log = [0, 1, 2] ∧ p.actor.service.last = taken := by
    decide +kernel
  obtain ⟨p, reached, facts⟩ := (Option.any_eq_true _ _).mp ran
  obtain ⟨turns, stored⟩ := of_decide_eq_true facts
  have protocol : ∀ m ∈ moves, m.InProtocol := by
    simp [moves, Move.InProtocol, Command.answers, Command.pauses]
  have free : (World.initial : World Unit Cell).gates service.gate = .free := rfl
  have mirrored := serial_of_run? free protocol reached
  exact ⟨p, reached, turns, stored, mirrored.2.2.2.1⟩

end Site

end Rollback
