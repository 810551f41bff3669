import Rollback.Proofs.Service.Collecting
import Rollback.Proofs.Service.Restoring

/-!
# Where a service stands after collecting

A session may also collect garbage, and other services delete checkpoints of its store. Collecting
after a line leaves alone the checkpoint on which the service stands, unless the line goes back to a
newer one: a service that has gone back itself may stand below what it has abandoned, and what is
below the line is deleted (`rewound_loses_stand`). It cannot happen to a service that has taken a
checkpoint since (`stand_after_collecting`).
-/

namespace Rollback

namespace Session

variable {ι σ : Type}

inductive Chore (ι σ : Type) where
  | act (a : Action ι σ)
  | collect (line : Line)
  /-- Another service deletes a checkpoint from the store. -/
  | drop (id : CheckpointId)

def collect (n : Session ι σ) (line : Line) : Session ι σ :=
  let (_, service, world) := n.service.collect n.world line
  { n with service, world }

def drop (n : Session ι σ) (id : CheckpointId) : Session ι σ :=
  { n with
    world := n.world.setStore n.service.storage ((n.service.store n.world).delete id).2 }

section Upkeep

variable [Checkpointable σ] [DecidableEq ι]

def tend (n : Session ι σ) : Chore ι σ → Session ι σ
  | .act a => n.step a
  | .collect line => n.collect line
  | .drop id => n.drop id

def upkeep (n : Session ι σ) (chores : List (Chore ι σ)) : Session ι σ := chores.foldl tend n

theorem upkeep_map_act (n : Session ι σ) (actions : List (Action ι σ)) :
    n.upkeep (actions.map .act) = n.run actions := List.foldl_map

end Upkeep

/-! ## What a chore does -/

def store (n : Session ι σ) : Store := n.service.store n.world

theorem store_setStore (s : Service ι) (w : World ι σ) (store : Store) (log : List Deed) :
    Session.store ⟨s, w.setStore s.storage store, log⟩ = store :=
  w.stores_setStore _ _

/-- What becomes of a session by a chore. -/
inductive Effect (n : Session ι σ) : Chore ι σ → Session ι σ → Prop where
  /-- The chain, the store and the log are as they were. -/
  | idle {chore : Chore ι σ} {m : Session ι σ} (name : m.service.name = n.service.name)
      (retained : m.service.retained = n.service.retained)
      (history : m.service.history = n.service.history)
      (lastCreated : m.service.lastCreated = n.service.lastCreated)
      (store : m.store = n.store) (log : m.log = n.log) : Effect n chore m
  | took {chore : Chore ι σ} {m : Session ι σ} {c : Checkpoint} {now : Instant}
      (owned : c.header.owner = n.service.name)
      (next : c.header.createdAt = n.service.nextTime now)
      (stored : n.store.put c = (.ok (), m.store))
      (service : m.service = n.service.remember c.id c.header.createdAt)
      (log : m.log = n.log ++ [.took c.id]) : Effect n chore m
  | restored {chore : Chore ι σ} {m : Session ι σ} {id : CheckpointId} {c : Checkpoint}
      (read : n.store.get id = .ok c) (owned : c.header.owner = n.service.name)
      (store : m.store = n.store) (service : m.service = n.service.rewind id c.header)
      (log : m.log = n.log ++ [.restored id]) : Effect n chore m
  | put {c : Checkpoint} {m : Session ι σ} (stored : n.store.put c = (.ok (), m.store))
      (service : m.service = n.service) (log : m.log = n.log) : Effect n (.act (.put c)) m
  | collected {line : Line} {m : Session ι σ} {found : List Header}
      (listed : n.listing = .ok found)
      (sheds : n.store.Sheds m.store found ((n.service.garbage found line).map (·.id)))
      (service : m.service = n.service.forget ((n.service.garbage found line).map (·.id)))
      (log : m.log = n.log) : Effect n (.collect line) m
  | dropped {id : CheckpointId} {m : Session ι σ} {present : Outcome Bool}
      (deleted : n.store.delete id = (present, m.store)) (service : m.service = n.service)
      (log : m.log = n.log) : Effect n (.drop id) m

theorem Effect.self (n : Session ι σ) (chore : Chore ι σ) : Effect n chore n :=
  .idle rfl rfl rfl rfl rfl rfl

variable {n m : Session ι σ} {chore : Chore ι σ} {found : List Header} {line : Line}
  {name : String}

theorem collect_effect (keyed : n.store.Keyed) (line : Line) :
    Effect n (.collect line) (n.collect line) := by
  unfold collect
  cases listed : n.listing with
  | error e =>
    obtain ⟨result, collects⟩ := Service.collect_of_error listed line
    rw [collects]
    exact .self n _
  | ok found =>
    obtain ⟨store, collects, sheds⟩ := Service.collect_eq keyed listed line
    rw [collects]
    exact .collected listed ((store_setStore _ _ _ _).symm ▸ sheds) rfl rfl

section Steps

variable [Checkpointable σ] [DecidableEq ι]

theorem step_effect (n : Session ι σ) (a : Action ι σ) : Effect n (.act a) (n.step a) := by
  cases a with
  | register key handle =>
    rw [step, Service.register]
    split <;> exact .idle rfl rfl rfl rfl rfl rfl
  | update peer id => exact .idle rfl rfl rfl rfl rfl rfl
  | receive peer tag =>
    rw [step, Service.receive]
    split <;> exact .idle rfl rfl rfl rfl rfl rfl
  | take token fresh now =>
    rw [step, Session.take]
    cases took : n.service.take n.world token fresh now with
    | mk result after =>
      obtain ⟨s, w⟩ := after
      obtain ⟨h, snapshots, store, rfl, made, stored, rfl, rfl⟩ | ⟨e, rfl, rfl, rfl⟩ :=
        Service.take_cases took
      · have named : fresh = h.id := by rw [made]
        subst named
        exact .took (c := ⟨h, snapshots⟩) (by rw [made]) (by rw [made])
          (stored.trans (congrArg _ (n.world.stores_setStore _ _).symm)) rfl rfl
      · exact .self n _
  | restore token id =>
    rw [step, Session.restore]
    cases restored : n.service.restore n.world token id with
    | mk result after =>
      obtain ⟨s, w⟩ := after
      obtain ⟨⟨c, rfl, read, owned, rfl⟩ | ⟨e, rfl, rfl⟩, stores⟩ := Service.restore_cases restored
      · exact .restored read owned (congrFun stores _) rfl rfl
      · exact .idle rfl rfl rfl rfl (congrFun stores _) rfl
  | work objects => exact .idle rfl rfl rfl rfl rfl rfl
  | put c =>
    rw [step]
    cases stored : (n.service.store n.world).put c with
    | mk result store =>
      cases result with
      | error e =>
        rw [Store.put_error stored, Service.store, World.setStore_self]
        exact .self n _
      | ok _ =>
        exact .put (stored.trans (congrArg _ (n.world.stores_setStore _ _).symm)) rfl rfl

theorem tend_effect (keyed : n.store.Keyed) (chore : Chore ι σ) : Effect n chore (n.tend chore) := by
  cases chore with
  | act a => exact step_effect n a
  | collect line => exact collect_effect keyed line
  | drop id => exact .dropped (Prod.ext rfl (n.world.stores_setStore _ _).symm) rfl rfl

end Steps

/-! ## What upkeep keeps -/

/-- The store keeps every checkpoint under its own id. -/
structure Sound (name : String) (n : Session ι σ) : Prop where
  named : n.service.name = name
  remembers : 0 < n.service.retained
  keyed : n.store.Keyed

theorem Sound.effect (sound : Sound name n) (effect : Effect n chore m) : Sound name m := by
  cases effect with
  | idle name retained _ _ store _ =>
    exact ⟨name.trans sound.named, retained ▸ sound.remembers, store ▸ sound.keyed⟩
  | took _ _ stored service _ =>
    exact ⟨service ▸ sound.named, service ▸ sound.remembers, sound.keyed.put stored⟩
  | restored _ _ store service _ =>
    exact ⟨service ▸ sound.named, service ▸ sound.remembers, store ▸ sound.keyed⟩
  | put stored service _ =>
    exact ⟨service ▸ sound.named, service ▸ sound.remembers, sound.keyed.put stored⟩
  | collected _ sheds service _ =>
    exact ⟨service ▸ sound.named, service ▸ sound.remembers, sheds.keyed⟩
  | dropped deleted service _ =>
    exact ⟨service ▸ sound.named, service ▸ sound.remembers, sound.keyed.delete deleted⟩

/-- No own checkpoint in the store is newer than the last one, and after a take the service stands on
the only one that is as new. -/
structure Foremost (name : String) (n : Session ι σ) : Prop where
  recent : ∀ h, n.store.Holds h → h.owner = name →
    ∃ t, n.service.lastCreated = some t ∧ (compare h.createdAt t).isLE = true
  stands : ∀ id, n.log.getLast? = some (.took id) → n.service.last = id
  only : ∀ id, n.log.getLast? = some (.took id) → ∀ h, n.store.Holds h → h.owner = name →
    ∃ t, n.service.lastCreated = some t ∧
      (h.id = id ∧ h.createdAt = t ∨ h.id ≠ id ∧ compare h.createdAt t = .lt)

namespace Foremost

/-- The store has lost checkpoints at most, and the rest is as it was. -/
theorem of_fewer (foremost : Foremost name n)
    (lastCreated : m.service.lastCreated = n.service.lastCreated) (log : m.log = n.log)
    (stands : ∀ id, n.log.getLast? = some (.took id) → m.service.last = n.service.last)
    (fewer : ∀ h, m.store.Holds h → h.owner = name → n.store.Holds h) : Foremost name m := by
  constructor
  · intro h holds own
    rw [lastCreated]
    exact foremost.recent h (fewer h holds own) own
  · intro id took
    rw [log] at took
    rw [stands id took]
    exact foremost.stands id took
  · intro id took h holds own
    rw [log] at took
    rw [lastCreated]
    exact foremost.only id took h (fewer h holds own) own

/-- After a take the service stands on a checkpoint that is older than no other one of its own. -/
theorem not_isOlder (foremost : Foremost name n) {id : CheckpointId}
    (took : n.log.getLast? = some (.took id)) {tip kept : Header} (here : n.store.Holds tip)
    (own : tip.owner = name) (top : tip.id = n.service.last) (there : n.store.Holds kept)
    (own' : kept.owner = name) : tip.isOlder kept = false := by
  rw [foremost.stands id took] at top
  obtain ⟨t, last, ⟨_, rfl⟩ | ⟨other, _⟩⟩ := foremost.only id took tip here own
  · obtain ⟨t', last', notNewer⟩ := foremost.only id took kept there own'
    cases last.symm.trans last'
    obtain ⟨same, sameTime⟩ | ⟨_, earlier⟩ := notNewer
    · simp [Header.isOlder, Header.age_eq, sameTime, top, same, Std.ReflCmp.compare_self]
    · exact Header.isOlder_asymm (Header.isOlder_of_createdAt earlier)
  · exact absurd top other

/-- A new checkpoint is the only one that is as new as itself. -/
theorem took (foremost : Foremost name n) (sound : Sound name n) {c : Checkpoint} {now : Instant}
    (next : c.header.createdAt = n.service.nextTime now) (stored : n.store.put c = (.ok (), m.store))
    (service : m.service = n.service.remember c.id c.header.createdAt)
    (log : m.log = n.log ++ [.took c.id]) : Foremost name m := by
  have before : ∀ h, n.store.Holds h → h.owner = name →
      compare h.createdAt c.header.createdAt = .lt := by
    intro h holds own
    obtain ⟨t, last, notNewer⟩ := foremost.recent h holds own
    rw [next]
    exact Std.TransCmp.lt_of_isLE_of_lt notNewer (Service.lt_nextTime last now)
  have last : m.service.lastCreated = some c.header.createdAt := by
    rw [service]
    rfl
  have latest : ∀ id, m.log.getLast? = some (.took id) → id = c.id := by
    intro id took
    rw [log, List.getLast?_concat] at took
    cases took
    rfl
  constructor
  · intro h holds own
    refine ⟨_, last, ?_⟩
    obtain rfl | held := Store.holds_put stored holds
    · simp [Std.ReflCmp.compare_self]
    · rw [before h held own]
      rfl
  · intro id took
    rw [service, Service.last, Service.getLast?_remember sound.remembers, latest id took]
    rfl
  · intro id took h holds own
    refine ⟨_, last, ?_⟩
    rw [latest id took]
    obtain rfl | held := Store.holds_put stored holds
    · exact Or.inl ⟨rfl, rfl⟩
    · exact Or.inr ⟨sound.keyed.ne_of_put stored held, before h held own⟩

theorem restored (foremost : Foremost name n) {id : CheckpointId} {c : Checkpoint}
    (store : m.store = n.store) (service : m.service = n.service.rewind id c.header)
    (log : m.log = n.log ++ [.restored id]) : Foremost name m := by
  have latest : ∀ id, m.log.getLast? ≠ some (.took id) := by
    intro id took
    rw [log, List.getLast?_concat] at took
    cases took
  constructor
  · intro h holds own
    rw [store] at holds
    obtain ⟨t, last, notNewer⟩ := foremost.recent h holds own
    obtain ⟨t', later, notBack⟩ := Service.isLE_later last c.header.createdAt
    refine ⟨t', ?_, Std.TransCmp.isLE_trans notNewer notBack⟩
    rw [service]
    exact later
  · exact fun id took => absurd took (latest id)
  · exact fun id took => absurd took (latest id)

/-- What the service stands on after a take is no garbage. -/
theorem collected (foremost : Foremost name n) (sound : Sound name n)
    (listed : n.listing = .ok found)
    (sheds : n.store.Sheds m.store found ((n.service.garbage found line).map (·.id)))
    (service : m.service = n.service.forget ((n.service.garbage found line).map (·.id)))
    (log : m.log = n.log) : Foremost name m := by
  have fewer : ∀ h, m.store.Holds h → n.store.Holds h := by
    obtain ⟨left, listed', perm⟩ := sheds.listed
    intro h holds
    exact (Store.mem_headers listed).mp
      (List.mem_of_mem_filter (perm.mem_iff.mp ((Store.mem_headers listed').mpr holds)))
  refine foremost.of_fewer (by rw [service]; rfl) log ?_ fun h holds _ => fewer h holds
  intro id took
  rw [service, Service.last, Service.getLast?_forget, Service.last]
  intro gone
  obtain ⟨tip, outdated, top⟩ := List.mem_map.mp gone
  obtain ⟨known, own, outdated⟩ := Service.mem_garbage.mp outdated
  obtain ⟨kept, known', own', _, older⟩ := Line.outdates_eq_true_iff.mp outdated
  rw [foremost.not_isOlder took ((Store.mem_headers listed).mp known) (own.trans sound.named) top
    ((Store.mem_headers listed).mp known') (own'.trans (own.trans sound.named))] at older
  contradiction

theorem effect (foremost : Foremost name n) (sound : Sound name n) (effect : Effect n chore m)
    (others : ∀ c, chore = .act (.put c) → c.header.owner ≠ name) : Foremost name m := by
  cases effect with
  | idle _ _ history lastCreated store log =>
    refine foremost.of_fewer lastCreated log ?_ ?_
    · intro _ _
      rw [Service.last, history, Service.last]
    · intro h holds _
      rwa [store] at holds
  | took _ next stored service log => exact foremost.took sound next stored service log
  | restored _ _ store service log => exact foremost.restored store service log
  | put stored service log =>
    refine foremost.of_fewer (congrArg _ service) log (fun _ _ => congrArg _ service) ?_
    intro h holds own
    obtain rfl | held := Store.holds_put stored holds
    · exact absurd own (others _ rfl)
    · exact held
  | collected listed sheds service log => exact foremost.collected sound listed sheds service log
  | dropped deleted service log =>
    refine foremost.of_fewer (congrArg _ service) log (fun _ _ => congrArg _ service) ?_
    exact fun h holds _ => Store.holds_delete deleted holds

end Foremost

theorem Sound.start {world : World ι σ} {name : String} {storage : StoreId}
    (keyed : (world.stores storage).Keyed) (gate : GateId) (retained : Nat) :
    Sound name (Session.start world name storage gate retained) := by
  refine ⟨rfl, ?_, keyed⟩
  simp only [Session.start, Service.new]
  omega

theorem Foremost.start {world : World ι σ} {name : String} {storage : StoreId}
    (absent : ∀ h, (world.stores storage).Holds h → h.owner ≠ name) (gate : GateId)
    (retained : Nat) : Foremost name (Session.start world name storage gate retained) := by
  constructor
  · exact fun h holds own => absurd own (absent h holds)
  all_goals simp [Session.start]

section Upkeep

variable [Checkpointable σ] [DecidableEq ι]

theorem Sound.upkeep (sound : Sound name n) (chores : List (Chore ι σ)) :
    Sound name (n.upkeep chores) := by
  induction chores generalizing n with
  | nil => exact sound
  | cons chore rest ih => exact ih (sound.effect (tend_effect sound.keyed chore))

theorem Foremost.upkeep (foremost : Foremost name n) (sound : Sound name n)
    (chores : List (Chore ι σ)) (others : ∀ c, .act (.put c) ∈ chores → c.header.owner ≠ name) :
    Foremost name (n.upkeep chores) := by
  induction chores generalizing n with
  | nil => exact foremost
  | cons chore rest ih =>
    have effect := tend_effect sound.keyed chore
    refine ih (foremost.effect sound effect ?_) (sound.effect effect) ?_
    · rintro c rfl
      exact others c List.mem_cons_self
    · exact fun c later => others c (List.mem_cons_of_mem _ later)

end Upkeep

/-! ## Where it stands -/

/-- The service stands on the same checkpoint, which can be read as before. -/
structure KeepsStand (n m : Session ι σ) : Prop where
  last : m.service.last = n.service.last
  tag : m.service.tag? = n.service.tag?
  retrieves : m.store.retrieve n.service.last = n.store.retrieve n.service.last

/-- The line goes back to a stored checkpoint that is newer than the one on which the service
stands. -/
def Overtaken (n : Session ι σ) (found : List Header) (line : Line) : Prop :=
  ∃ tip ∈ found, tip.owner = n.service.name ∧ tip.id = n.service.last ∧
    ∃ kept ∈ found, kept.owner = n.service.name ∧
      line.checkpointFor n.service.name = some kept.id ∧ tip.isOlder kept = true

theorem overtaken_iff : Overtaken n found line ↔
    n.service.last ∈ (n.service.garbage found line).map (·.id) := by
  rw [List.mem_map]
  constructor
  · rintro ⟨tip, known, own, top, outdated⟩
    refine ⟨tip, Service.mem_garbage.mpr ⟨known, own, ?_⟩, top⟩
    rw [Line.outdates_eq_true_iff, own]
    exact outdated
  · rintro ⟨tip, outdated, top⟩
    obtain ⟨known, own, outdated⟩ := Service.mem_garbage.mp outdated
    rw [Line.outdates_eq_true_iff, own] at outdated
    exact ⟨tip, known, own, top, outdated⟩

theorem keepsStand_collect_iff (keyed : n.store.Keyed) (listed : n.listing = .ok found) :
    KeepsStand n (n.collect line) ↔ ¬ Overtaken n found line := by
  obtain ⟨store, collects, sheds⟩ := Service.collect_eq keyed listed line
  have same : n.collect line =
      ⟨n.service.forget ((n.service.garbage found line).map (·.id)),
        n.world.setStore n.service.storage store, n.log⟩ := by
    rw [collect, collects]
  have after : (n.collect line).store = store := by
    rw [same]
    exact store_setStore (n.service.forget _) _ _ _
  constructor
  · rintro keeps ⟨tip, known, own, top, outdated⟩
    have gone := sheds.lost _ (overtaken_iff.mp ⟨tip, known, own, top, outdated⟩)
    rw [← after, keeps.retrieves, ← top] at gone
    exact keyed.retrieve_ne_none ((Store.mem_headers listed).mp known) gone
  · intro ahead
    have kept := mt overtaken_iff.mpr ahead
    have chain := Service.getLast?_forget kept
    constructor
    · rw [same, Service.last, chain, Service.last]
    · rw [same, Service.tag?, chain, Service.tag?]
    · rw [after]
      exact sheds.retrieves _ kept

variable [Checkpointable σ] [DecidableEq ι]

/-- To collect after a line that was just computed never fails, and leaves alone the checkpoint on
which the service stands, exactly unless the line goes back to a newer one. That cannot be if the
service has taken a checkpoint since its last restore, and nobody else stores any under its name. -/
theorem stand_after_collecting {world : World ι σ} (name : String) {storage : StoreId}
    (keyed : (world.stores storage).Keyed) (gate : GateId) (retained : Nat)
    (chores : List (Chore ι σ)) {n : Session ι σ}
    (runs : (start world name storage gate retained).upkeep chores = n) {failed : List String}
    {graph : Graph} {line : Line} (computes : n.service.line n.world failed graph = .ok line) :
    ∃ found, n.listing = .ok found ∧
      (∃ count, (n.service.collect n.world line).1 = .ok count) ∧
      (KeepsStand n (n.collect line) ↔ ¬ Overtaken n found line) ∧
      ((∀ h, (world.stores storage).Holds h → h.owner ≠ name) →
        (∀ c, .act (.put c) ∈ chores → c.header.owner ≠ name) →
        ∀ id, n.log.getLast? = some (.took id) → ¬ Overtaken n found line) := by
  have sound : Sound name n := runs ▸ (Sound.start keyed gate retained).upkeep chores
  obtain ⟨found, _, listed, _, _⟩ := Service.line_eq_ok_iff.mp computes
  refine ⟨found, listed, ?_, keepsStand_collect_iff sound.keyed listed, ?_⟩
  · obtain ⟨_, collects, _⟩ := Service.collect_eq sound.keyed listed line
    exact ⟨_, congrArg Prod.fst collects⟩
  · rintro absent others id took ⟨tip, known, own, top, kept, known', own', _, older⟩
    have foremost : Foremost name n := runs ▸
      (Foremost.start absent gate retained).upkeep (Sound.start keyed gate retained) chores others
    rw [foremost.not_isOlder took ((Store.mem_headers listed).mp known) (own.trans sound.named) top
      ((Store.mem_headers listed).mp known') (own'.trans sound.named)] at older
    contradiction

/-! ## A sink that has gone back -/

/-- The line that takes the sink back to a checkpoint. -/
def backTo (id : CheckpointId) : Line := ⟨(∅ : Dependencies).insert "sink" id⟩

/-- The sink goes back to its first checkpoint and takes a third one. -/
def tendingRun : List (Chore Empty Cell) :=
  rewindingRun.map .act ++ [.act (.take 0 (.ofDigit 3) Instant.epoch.tick)]

def tended : Session Empty Cell := (start .initial "sink" 0 0 16).upkeep tendingRun

theorem stand_after_collecting_tended :
    tended.service.line tended.world ["sink"] .empty = .ok (backTo (.ofDigit 3)) ∧
    tended.service.last = .ofDigit 3 ∧
    (tended.service.collect tended.world (backTo (.ofDigit 3))).1 = .ok 2 ∧
    KeepsStand tended (tended.collect (backTo (.ofDigit 3))) := by
  obtain ⟨listed, last, log, count⟩ :
      tended.listing = .ok (sinkHeaders ++ [⟨.ofDigit 3, "sink", Instant.epoch.tick.tick.tick,
        (∅ : Dependencies).insert "sink" (.ofDigit 1)⟩]) ∧
      tended.service.last = .ofDigit 3 ∧ tended.log.getLast? = some (.took (.ofDigit 3)) ∧
      (tended.service.collect tended.world (backTo (.ofDigit 3))).1 = .ok 2 := by decide +kernel
  have computes : tended.service.line tended.world ["sink"] .empty = .ok (backTo (.ofDigit 3)) :=
    Service.line_eq_ok_iff.mpr ⟨_, _, listed,
      Chronicle.ofHeaders_eq_inOrder (by decide +kernel) (.refl _) (by decide +kernel),
      Chronicle.recover_of_lineWithin (n := 1) (by decide +kernel)⟩
  have empty : ((World.initial : World Empty Cell).stores 0).headers none = .ok [] := rfl
  obtain ⟨_, _, _, keeps, ahead⟩ := stand_after_collecting "sink"
    (Store.keyed_of_headers_nil empty) 0 16 tendingRun (n := tended) rfl computes
  refine ⟨computes, last, count, keeps.mpr (ahead ?_ ?_ _ log)⟩
  · intro h holds
    cases (Store.mem_headers empty).mpr holds
  · simp [tendingRun, rewindingRun]

/-- If the sink fails after it has gone back, its line takes it to its second checkpoint. The first
one, on which it stands, is garbage then. -/
theorem rewound_loses_stand : ∃ chores line,
    (start .initial "sink" 0 0 16).upkeep chores = rewound ∧
    rewound.service.line rewound.world ["sink"] .empty = .ok line ∧
    ¬ KeepsStand rewound (rewound.collect line) := by
  obtain ⟨listed, moved⟩ : rewound.listing = .ok sinkHeaders ∧
      (rewound.collect (backTo (.ofDigit 2))).service.last ≠ rewound.service.last := by
    decide +kernel
  have computes : rewound.service.line rewound.world ["sink"] .empty =
      .ok (backTo (.ofDigit 2)) :=
    Service.line_eq_ok_iff.mpr ⟨_, _, listed,
      Chronicle.ofHeaders_eq_inOrder (by decide +kernel) (.refl _) (by decide +kernel),
      Chronicle.recover_of_lineWithin (n := 1) (by decide +kernel)⟩
  exact ⟨rewindingRun.map .act, _, upkeep_map_act _ _, computes, fun keeps => moved keeps.last⟩

end Session

end Rollback
