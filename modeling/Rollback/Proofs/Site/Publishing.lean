import Rollback.Proofs.Site.Order
import Rollback.Snapshot.Cell

/-!
# What is published

Between two commands the published ids are those of the service. A checkpoint is published before the
gate goes back, so a unit of work that holds the gate always reads the one that was taken or restored
last (`published_of_run?`).
-/

namespace Rollback

namespace Service

variable {ι σ : Type} {s s' : Service ι} {w w' : World ι σ} {snapshots : NameMap Snapshot}
  {draw : Draw}

theorem last_deposit (keeps : 0 < s.retained) {id : CheckpointId}
    (stored : s.deposit w snapshots draw = (.ok id, s', w')) : s'.last = id := by
  unfold deposit at stored
  split at stored
  · cases stored
  · split at stored <;> cases stored
    rw [last, getLast?_remember keeps]
    rfl

theorem deposit_error {e : Error} (failed : s.deposit w snapshots draw = (.error e, s', w')) :
    s' = s := by
  unfold deposit at failed
  split at failed
  · cases failed
    rfl
  · split at failed <;> cases failed
    rfl

end Service

namespace Command

variable {ι σ : Type} [DecidableEq ι] [Checkpointable σ]

omit [DecidableEq ι] [Checkpointable σ] in
theorem pauses_of_stays {c : Command ι} (stays : c.moves = false) : c.pauses = false := by
  cases c <;> first | rfl | contradiction

/-- Only some commands can move the chain of own checkpoints. -/
theorem run_chainEnd {c : Command ι} (stays : c.moves = false) (s : Service ι) (w : World ι σ)
    (token : GateId) (fresh : CheckpointId) (now : Instant) :
    (c.run s w token fresh now).2.1.chainEnd = s.chainEnd := by
  cases c with
  | register key handle =>
    change (s.register key handle).2.chainEnd = s.chainEnd
    unfold Service.register
    split <;> rfl
  | receive peer tag =>
    change (s.receive peer tag).chainEnd = s.chainEnd
    unfold Service.receive
    split <;> rfl
  | update _ _ | notice _ _ | line _ _ => rfl
  | take | restore _ | request _ | collect _ | clear => contradiction

end Command

namespace Site

variable {ι σ : Type}

/-! ## The checkpoint that counts -/

/-- The checkpoint that was taken or restored. -/
def Deed.made? : Deed ι σ → Option CheckpointId
  | operated _ _ (.ok (.taken id)) => some id
  | operated c _ (.ok _) => c.target?
  | _ => none

def Entry.made? : Entry ι σ → Option CheckpointId
  | acquired _ => none
  | did _ d => d.made?

/-- The checkpoint that was taken or restored last. -/
def newest (log : List (Entry ι σ)) : Option CheckpointId := (log.filterMap Entry.made?).getLast?

theorem newest_append (front back : List (Entry ι σ)) :
    newest (front ++ back) = (newest back).or (newest front) := by
  rw [newest, List.filterMap_append, List.getLast?_append]
  rfl

variable [DecidableEq ι] [Checkpointable σ]

namespace Stage.Advances

variable {c : Command ι} {draw : Draw} {s s' : Service ι} {w w' : World ι σ} {stage stage' : Stage ι}

/-- The chain stays as it is until a command is performed that can move it. -/
theorem chainEnd (advances : Advances c draw s w stage stage' s' w') (suits : stage.Suits c)
    (quiet : stage'.result? = none ∨ c.moves = false) : s'.chainEnd = s.chainEnd := by
  obtain waits | stays := quiet
  · rw [(advances.same waits).1]
  · obtain ⟨-, _, -, runs⟩ := advances.runs_of_free (Command.pauses_of_stays stays) suits
    have kept := c.run_chainEnd stays s w s.gate draw.fresh draw.now
    rwa [runs] at kept

end Stage.Advances

/-- What the log says of a step is the checkpoint that the service has then. -/
theorem Task.last_next {t : Task ι} {stage : Stage ι} {s s' : Service ι} {w w' : World ι σ}
    (advances : Stage.Advances t.call.command t.draw s w t.stage stage s' w')
    (suits : t.stage.Suits t.call.command) (keeps : 0 < s.retained)
    (pauses : t.call.command.moves = true → t.call.command.pauses = true) :
    s'.last = (newest (t.entries stage : List (Entry ι σ))).getD s.last := by
  obtain ⟨⟨ticket, c⟩, draw, before⟩ := t
  cases advances with
  | direct free runs =>
    have stays : c.moves = false := Bool.eq_false_iff.mpr fun moves =>
      absurd (pauses moves) (by simp [free])
    have same := c.run_chainEnd stays s w s.gate draw.fresh draw.now
    rw [runs] at same
    have last : s'.last = s.last := congrArg ChainEnd.last same
    simpa [Task.entries, free, newest] using last
  | @store result _ _ _ stored =>
    obtain rfl : c = .take := suits
    cases result with
    | ok id => exact Service.last_deposit keeps stored
    | error e => exact congrArg Service.last (Service.deposit_error stored)
  | rewind =>
    rw [Service.last, Service.rewind, Service.getLast?_rewound]
    cases c <;> cases suits <;> rfl
  | fail _ =>
    obtain rfl : c = .take := suits
    rfl
  | refuse target _ => cases c <;> cases target <;> rfl
  | miss _ | spoil _ _ => cases c <;> cases suits <;> rfl
  | capture _ | snap _ | load _ _ | restore _ _ => rfl

variable {p q : Site ι σ} {m : Move ι σ}

/-! ## What the actor publishes -/

/-- The ids of the service are published, but for a command that has just been performed. -/
def Published (p : Site ι σ) : Prop :=
  p.actor.published = p.actor.service.chainEnd ∨
    ∃ c draw result, p.task = some ⟨c, draw, .performed result⟩ ∧ c.command.moves = true

theorem Published.acts (published : Published p) (ordered : Orderly p) (acted : Acts p m q) :
    Published q := by
  cases acted with
  | enter | change _ _ _ _ | ask _ _ _ | leave _ _ _ | wait _ | send _ | pass _ _ | accept _ _ =>
    exact published
  | begin idle _ _ =>
    obtain same | ⟨_, _, _, busy, _⟩ := published
    · exact Or.inl same
    · rw [idle] at busy
      contradiction
  | @perform t at_ stage s w advances =>
    obtain same | ⟨_, _, _, busy, _⟩ := published
    · by_cases quiet : stage.result? = none ∨ t.call.command.moves = false
      · have kept := advances.chainEnd (ordered.suits t at_) quiet
        exact Or.inl (same.trans kept.symm)
      · obtain ⟨performed, moves⟩ := not_or.mp quiet
        obtain ⟨result, rfl⟩ := advances.performed_or_under.resolve_left performed
        exact Or.inr ⟨t.call, t.draw, result, rfl, Bool.not_eq_false _ ▸ moves⟩
    · rw [at_] at busy
      cases busy
      cases advances.under
  | @publish c _ _ at_ =>
    refine Or.inl ?_
    cases moves : c.command.moves with
    | true => simp
    | false =>
      obtain same | ⟨_, _, _, busy, other⟩ := published
      · simpa using same
      · rw [at_] at busy
        cases busy
        rw [moves] at other
        contradiction
  | release at_ | answer at_ =>
    obtain same | ⟨_, _, _, busy, _⟩ := published
    · exact Or.inl same
    · rw [at_] at busy
      cases busy

/-- The newest checkpoint of the service is the one that was taken or restored last. -/
structure Current (before : Service ι) (p : Site ι σ) : Prop where
  keeps : 0 < p.actor.service.retained
  last : p.actor.service.last = (newest p.log).getD before.last
  pauses : ∀ c ∈ p.afoot, c.command.moves = true → c.command.pauses = true

theorem Current.acts {before : Service ι} (current : Current before p) (ordered : Orderly p)
    (sends : ∀ c ∈ m.command?, c.moves = true → c.pauses = true) (acted : Acts p m q) :
    Current before q := by
  have pauses := afoot_acts (P := fun c => c.moves = true → c.pauses = true) current.pauses sends acted
  refine ⟨?_, ?_, pauses⟩
  · cases acted with
    | perform _ advances =>
      exact Nat.lt_of_lt_of_eq current.keeps (congrArg (·.2.2.2) advances.fixed).symm
    | enter | change _ _ _ _ | ask _ _ _ | leave _ _ _ | wait _ | send _ | pass _ _ | accept _ _
    | begin _ _ _ | publish _ | release _ | answer _ => exact current.keeps
  · cases acted with
    | @perform t at_ stage s w advances =>
      have mayMove := current.pauses t.call (by simp [afoot, at_])
      rw [Task.last_next advances (ordered.suits t at_) current.keeps mayMove, current.last,
        newest_append]
      cases newest (t.entries stage : List (Entry ι σ)) <;> rfl
    | change _ _ _ _ | ask _ _ _ =>
      rw [newest_append]
      exact current.last
    | enter | leave _ _ _ | wait _ | send _ | pass _ _ | accept _ _ | begin _ _ _ | publish _
    | release _ | answer _ => exact current.last

omit [DecidableEq ι] [Checkpointable σ] in
theorem newest_note (p after : Site ι σ) : newest (p.note after).log = newest after.log := by
  rw [newest, note, List.filterMap_append, filterMap_acquisitions (fun _ => rfl), List.append_nil,
    newest]

theorem Published.step? (published : Published p) (ordered : Orderly p)
    (stepped : p.step? m = some q) : Published q := by
  obtain ⟨after, acted, rfl⟩ := Option.map_eq_some_iff.mp stepped
  have kept : Published after := published.acts ordered (acts_of_act? ordered.running acted)
  exact kept

theorem Current.step? {before : Service ι} (current : Current before p) (ordered : Orderly p)
    (sends : ∀ c ∈ m.command?, c.moves = true → c.pauses = true) (stepped : p.step? m = some q) :
    Current before q := by
  obtain ⟨after, acted, rfl⟩ := Option.map_eq_some_iff.mp stepped
  obtain ⟨keeps, last, pauses⟩ := current.acts ordered sends (acts_of_act? ordered.running acted)
  exact ⟨keeps, newest_note p after ▸ last, pauses⟩

theorem published_run? {service : Service ι} {buffer : Nat} {world : World ι σ}
    (free : world.gates service.gate = .free) {moves : List (Move ι σ)}
    (reached : (start service buffer world).run? moves = some p) : Orderly p ∧ Published p := by
  refine run?_keeps (P := fun p => Orderly p ∧ Published p) (A := fun _ => True) ?_
    ⟨.start free buffer, Or.inl rfl⟩ (fun _ _ => trivial) reached
  rintro p m q ⟨ordered, published⟩ _ stepped
  exact ⟨ordered.step? stepped, published.step? ordered stepped⟩

theorem current_run? {service : Service ι} {buffer : Nat} {world : World ι σ}
    (free : world.gates service.gate = .free) (keeps : 0 < service.retained)
    {moves : List (Move ι σ)}
    (sends : ∀ m ∈ moves, ∀ c ∈ m.command?, c.moves = true → c.pauses = true)
    (reached : (start service buffer world).run? moves = some p) : Current service p := by
  refine (run?_keeps (P := fun p => Orderly p ∧ Current service p)
    (A := fun m => ∀ c ∈ m.command?, c.moves = true → c.pauses = true) ?_
    ⟨.start free buffer, keeps, rfl, List.forall_mem_nil _⟩ sends reached).2
  rintro p m q ⟨ordered, current⟩ sends stepped
  exact ⟨ordered.step? stepped, current.step? ordered sends stepped⟩

/-- Between two commands the published ids are those of the service. While a unit of work holds the
gate, the newest published checkpoint is the one that was taken or restored last, or the service's
first if there is none, as long as nobody collects garbage or clears the storage; so the tag of an
outgoing message is never that of an older one. -/
theorem published_of_run? {service : Service ι} {buffer : Nat} {world : World ι σ}
    (free : world.gates service.gate = .free) (keeps : 0 < service.retained)
    {moves : List (Move ι σ)} (reached : (start service buffer world).run? moves = some p) :
    (p.task = none → p.actor.published = p.actor.service.chainEnd) ∧
      ((∀ m ∈ moves, m.command? ≠ some .clear ∧ ∀ line, m.command? ≠ some (.collect line)) →
        ∀ unit ∈ p.units, p.holder = some unit →
          p.actor.published.last = (newest p.log).getD service.last ∧
          ∀ tag, p.actor.tag? = some tag → tag.checkpoint = (newest p.log).getD service.last) := by
  obtain ⟨ordered, published⟩ := published_run? free reached
  refine ⟨fun idle => ?_, fun noGarbage unit here holds => ?_⟩
  · obtain same | ⟨_, _, _, busy, _⟩ := published
    · exact same
    · rw [idle] at busy
      contradiction
  · have sends : ∀ m ∈ moves, ∀ c ∈ m.command?, c.moves = true → c.pauses = true := by
      intro m member c sent moves
      obtain ⟨noClear, noCollect⟩ := noGarbage m member
      cases c with
      | take | restore _ | request _ => rfl
      | clear => exact absurd sent noClear
      | collect line => exact absurd sent (noCollect line)
      | register _ _ | update _ _ | receive _ _ | notice _ _ | line _ _ => contradiction
    have current := current_run? free keeps sends reached
    have fresh : p.actor.published = p.actor.service.chainEnd := by
      obtain same | ⟨c, draw, result, busy, moves⟩ := published
      · exact same
      · -- the command would still hold the gate
        have pauses := current.pauses c (by simp [afoot, busy]) moves
        have member : c ∈ p.pausing := by simp [pausing, underway, busy, Task.unfinished, pauses]
        rw [ordered.contest.pausing_eq_nil here holds] at member
        contradiction
    have last : p.actor.published.last = (newest p.log).getD service.last := by
      rw [fresh]
      exact current.last
    refine ⟨last, fun tag carried => ?_⟩
    unfold Actor.tag? at carried
    split at carried <;> cases carried
    exact last

/-- A checkpoint was taken, and the next unit of work has got the gate. -/
theorem published_of_run?_taken :
    let fresh : CheckpointId := ⟨7, by decide⟩
    let moves := [.call .take, .enter, .pass, .accept, .begin ⟨fresh, .tick .epoch⟩, .advance, .advance,
      .advance, .advance]
    ∃ p : Site Empty Cell, (start (.new "orders" 0 0) 1 .initial).run? moves = some p ∧
      p.holder = some 1 ∧ newest p.log = some fresh ∧ p.actor.published.last = fresh := by
  intro fresh moves
  have ran : ((start (.new "orders" 0 0) 1 .initial : Site Empty Cell).run? moves).any fun p =>
      1 ∈ p.units ∧ p.holder = some 1 ∧ newest p.log = some fresh := by
    decide +kernel
  obtain ⟨p, reached, facts⟩ := (Option.any_eq_true _ _).mp ran
  obtain ⟨here, holds, taken⟩ := of_decide_eq_true facts
  refine ⟨p, reached, holds, taken, ?_⟩
  have read := (published_of_run? rfl (by decide) reached).2 (by simp [moves, Move.command?]) 1 here
    holds
  rw [read.1, taken, Option.getD_some]

end Site

end Rollback
