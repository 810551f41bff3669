import Rollback.Proofs.Service.Steps

/-!
# Sessions

A session is one service at work over its store. It registers objects, takes in tags, takes
checkpoints and restores them in any order, while other services put their checkpoints into the same
store. The log holds what the service took and restored. Whatever it goes back to, its checkpoints
come in the order of taking, and each of them follows the one on which the service stood
(`exists_archive_run`).
-/

namespace Rollback

inductive Deed where
  | took (id : CheckpointId)
  | restored (id : CheckpointId)
  deriving DecidableEq

namespace Deed

/-- The checkpoint on which the service stands then. -/
def id : Deed → CheckpointId
  | took id | restored id => id

/-- The checkpoint on which the service stands after all this, nil if nothing was done. -/
def stand (log : List Deed) : CheckpointId := (log.getLast?.map id).getD .nil

def takes? : Deed → Option CheckpointId
  | took id => some id
  | restored _ => none

/-- The checkpoints that were taken, in the order of taking. -/
def taken (log : List Deed) : List CheckpointId := log.filterMap takes?

theorem stand_concat (log : List Deed) (d : Deed) : stand (log ++ [d]) = d.id := by
  simp [stand]

theorem stand_append (front : List Deed) (d : Deed) (back : List Deed) :
    stand (front ++ d :: back) = stand (d :: back) := by
  simp [stand, List.getLast?_append, List.getLast?_cons]

theorem taken_append (front back : List Deed) : taken (front ++ back) = taken front ++ taken back :=
  List.filterMap_append

theorem mem_taken {log : List Deed} {id : CheckpointId} : id ∈ taken log ↔ .took id ∈ log := by
  rw [taken, List.mem_filterMap]
  constructor
  · rintro ⟨_ | _, member, took⟩
    · cases took
      exact member
    · cases took
  · exact fun member => ⟨_, member, rfl⟩

end Deed

/-- One service, what it shares with others, and what it did. -/
structure Session (ι σ : Type) where
  service : Service ι
  world : World ι σ
  log : List Deed

namespace Session

variable {ι σ : Type}

/-- A new service over any store. -/
def start (world : World ι σ) (name : String) (storage : StoreId) (gate : GateId)
    (retained : Nat) : Session ι σ :=
  ⟨.new name storage gate retained, world, []⟩

/-- What the store lists, if it can list all that it holds. -/
def listing (n : Session ι σ) : Outcome (List Header) := (n.service.store n.world).headers none

inductive Action (ι σ : Type) where
  | register (key : String) (handle : ι)
  | update (peer : String) (id : CheckpointId)
  | receive (peer : String) (tag : DependencyTag)
  | take (token : GateId) (fresh : CheckpointId) (now : Instant)
  | restore (token : GateId) (id : CheckpointId)
  | work (objects : Heap ι σ)
  /-- Another service puts a checkpoint into the store. -/
  | put (c : Checkpoint)

variable [Checkpointable σ]

/-- A checkpoint that cannot be taken leaves no entry in the log. -/
def take (n : Session ι σ) (token : GateId) (fresh : CheckpointId) (now : Instant) : Session ι σ :=
  match n.service.take n.world token fresh now with
  | (.ok id, service, world) => ⟨service, world, n.log ++ [.took id]⟩
  | (.error _, service, world) => ⟨service, world, n.log⟩

variable [DecidableEq ι]

def restore (n : Session ι σ) (token : GateId) (id : CheckpointId) : Session ι σ :=
  match n.service.restore n.world token id with
  | (.ok (), service, world) => ⟨service, world, n.log ++ [.restored id]⟩
  | (.error _, service, world) => ⟨service, world, n.log⟩

def step (n : Session ι σ) : Action ι σ → Session ι σ
  | .register key handle => { n with service := (n.service.register key handle).2 }
  | .update peer id => { n with service := n.service.update peer id }
  | .receive peer tag => { n with service := n.service.receive peer tag }
  | .take token fresh now => n.take token fresh now
  | .restore token id => n.restore token id
  | .work objects => { n with world := { n.world with objects } }
  | .put c =>
    { n with
      world := n.world.setStore n.service.storage ((n.service.store n.world).put c).2 }

def run (n : Session ι σ) (actions : List (Action ι σ)) : Session ι σ := actions.foldl step n

/-! ## What is on record -/

omit [Checkpointable σ] [DecidableEq ι]

/-- The headers of the checkpoints that the service took, in the order of taking. The store lists
them, each is dated behind those in front of it, and each follows the checkpoint on which the
service stood when it was taken. -/
structure Archive (name : String) (headers : List Header) (n : Session ι σ) : Prop where
  named : n.service.name = name
  remembers : 0 < n.service.retained
  last : n.service.last = Deed.stand n.log
  listed : ∀ found, n.listing = .ok found → ∀ h ∈ headers, h ∈ found
  taken : headers.map (·.id) = Deed.taken n.log
  owned : ∀ h ∈ headers, h.owner = name
  dated : n.service.Dated headers
  previous : ∀ front id back, n.log = front ++ .took id :: back →
    ∃ h ∈ headers, h.id = id ∧ h.previous = Deed.stand front

namespace Archive

variable {name : String} {headers : List Header} {n next : Session ι σ}

theorem start (world : World ι σ) (name : String) (storage : StoreId) (gate : GateId)
    (retained : Nat) : Archive name [] (Session.start world name storage gate retained) := by
  constructor
  case named => rfl
  case remembers =>
    simp only [Session.start, Service.new]
    omega
  case last => rfl
  case dated => constructor <;> simp
  all_goals simp [Session.start, Service.new, Deed.taken]

/-- The chain, the store and the log are as they were. -/
theorem of_same (archive : Archive name headers n) (same : next.service.name = n.service.name)
    (retained : next.service.retained = n.service.retained)
    (history : next.service.history = n.service.history)
    (lastCreated : next.service.lastCreated = n.service.lastCreated)
    (store : next.service.store next.world = n.service.store n.world)
    (log : next.log = n.log) : Archive name headers next := by
  constructor
  case named =>
    rw [same]
    exact archive.named
  case remembers =>
    rw [retained]
    exact archive.remembers
  case last =>
    rw [Service.last, history, log]
    exact archive.last
  case listed =>
    rw [listing, store]
    exact archive.listed
  case taken =>
    rw [log]
    exact archive.taken
  case owned => exact archive.owned
  case dated =>
    constructor
    · exact archive.dated.ordered
    · rw [lastCreated]
      exact archive.dated.recent
  case previous =>
    rw [log]
    exact archive.previous

theorem receive (archive : Archive name headers n) (peer : String) (tag : DependencyTag) :
    Archive name headers { n with service := n.service.receive peer tag } := by
  unfold Service.receive
  split
  · exact archive
  · exact archive.of_same rfl rfl rfl rfl rfl rfl

theorem register (archive : Archive name headers n) (key : String) (handle : ι) :
    Archive name headers { n with service := (n.service.register key handle).2 } := by
  unfold Service.register
  split
  · exact archive.of_same rfl rfl rfl rfl rfl rfl
  · exact archive

/-- The checkpoint of another service leaves those of this one where they are. -/
theorem put (archive : Archive name headers n) (c : Checkpoint) :
    Archive name headers { n with
      world := n.world.setStore n.service.storage ((n.service.store n.world).put c).2 } := by
  cases stored : (n.service.store n.world).put c with
  | mk result store =>
    cases result with
    | error e =>
      rw [Store.put_error stored]
      change Archive name headers { n with
        world := n.world.setStore n.service.storage (n.world.stores n.service.storage) }
      rw [World.setStore_self]
      exact archive
    | ok _ =>
      constructor
      case listed =>
        intro found listed h member
        rw [listing, Service.store, World.setStore] at listed
        simp only [if_pos] at listed
        obtain ⟨before, listed, perm⟩ := Store.headers_put stored listed
        exact perm.mem_iff.mpr (List.mem_cons_of_mem _ (archive.listed before listed h member))
      case named => exact archive.named
      case remembers => exact archive.remembers
      case last => exact archive.last
      case taken => exact archive.taken
      case owned => exact archive.owned
      case dated => exact archive.dated
      case previous => exact archive.previous

/-- A step of the log: every checkpoint that was taken before it follows what it followed. -/
theorem previous_concat {log : List Deed} {d : Deed} {more : List Header}
    (known : ∀ front id back, log = front ++ .took id :: back →
      ∃ h ∈ headers, h.id = id ∧ h.previous = Deed.stand front)
    (added : ∀ id, d = .took id → ∃ h ∈ more, h.id = id ∧ h.previous = Deed.stand log) :
    ∀ front id back, log ++ [d] = front ++ .took id :: back →
      ∃ h ∈ headers ++ more, h.id = id ∧ h.previous = Deed.stand front := by
  intro front id back same
  obtain rfl | ⟨back, d', rfl⟩ := List.eq_nil_or_concat back
  · obtain ⟨rfl, last⟩ := List.append_inj' same rfl
    obtain ⟨h, member, follows⟩ := added id (List.singleton_inj.mp last)
    exact ⟨h, List.mem_append_right _ member, follows⟩
  · have same : log ++ [d] = (front ++ .took id :: back) ++ [d'] := by simpa using same
    obtain ⟨rfl, _⟩ := List.append_inj' same rfl
    obtain ⟨h, member, follows⟩ := known front id back rfl
    exact ⟨h, List.mem_append_left _ member, follows⟩

variable [Checkpointable σ]

theorem take (archive : Archive name headers n) (token : GateId) (fresh : CheckpointId)
    (now : Instant) : ∃ more, Archive name (headers ++ more) (n.take token fresh now) := by
  unfold Session.take
  cases took : n.service.take n.world token fresh now with
  | mk result after =>
    obtain ⟨s, w⟩ := after
    obtain ⟨h, snapshots, store, rfl, made, stored, rfl, rfl⟩ | ⟨e, rfl, rfl, rfl⟩ :=
      Service.take_cases took
    · refine ⟨[h], ?_⟩
      constructor
      case named => exact archive.named
      case remembers => exact archive.remembers
      case last =>
        rw [Service.last, Service.getLast?_remember archive.remembers, Deed.stand_concat]
        rfl
      case listed =>
        intro found listed k member
        rw [listing, Service.store, World.setStore] at listed
        simp only [Service.remember, if_pos] at listed
        obtain ⟨before, listed, perm⟩ := Store.headers_put stored listed
        rw [perm.mem_iff]
        obtain member | new := List.mem_append.mp member
        · exact List.mem_cons_of_mem _ (archive.listed before listed k member)
        · rw [List.mem_singleton.mp new]
          exact List.mem_cons_self
      case taken =>
        rw [List.map_append, Deed.taken_append, archive.taken, made]
        rfl
      case owned =>
        intro k member
        obtain member | new := List.mem_append.mp member
        · exact archive.owned k member
        · rw [List.mem_singleton.mp new, made]
          exact archive.named
      case dated => exact archive.dated.remember (by rw [made]) fresh
      case previous =>
        apply previous_concat archive.previous
        rintro _ ⟨⟩
        refine ⟨h, List.mem_cons_self, by rw [made], ?_⟩
        rw [made, ← archive.last, Header.previous]
        simp
    · exact ⟨[], by simpa using archive⟩

theorem restore [DecidableEq ι] (archive : Archive name headers n) (token : GateId)
    (id : CheckpointId) : Archive name headers (n.restore token id) := by
  unfold Session.restore
  cases restored : n.service.restore n.world token id with
  | mk result after =>
    obtain ⟨s, w⟩ := after
    obtain ⟨⟨c, rfl, -, -, rfl⟩ | ⟨e, rfl, rfl⟩, stores⟩ := Service.restore_cases restored
    · constructor
      case named => exact archive.named
      case remembers => exact archive.remembers
      case last =>
        rw [Service.last, Service.rewind, Service.getLast?_rewound, Deed.stand_concat]
        rfl
      case listed =>
        rw [listing, Service.store, stores]
        exact archive.listed
      case taken =>
        rw [Deed.taken_append, archive.taken]
        exact (List.append_nil _).symm
      case owned => exact archive.owned
      case dated => exact archive.dated.rewind id c.header
      case previous =>
        intro front fresh back same
        obtain ⟨h, member, follows⟩ := previous_concat archive.previous
          (fun _ took => nomatch (took : Deed.restored id = .took _)) front fresh back same
        rw [List.append_nil] at member
        exact ⟨h, member, follows⟩
    · have store : n.service.store w = n.service.store n.world := by
        rw [Service.store, Service.store, stores]
      exact archive.of_same rfl rfl rfl rfl store rfl

theorem step [DecidableEq ι] (archive : Archive name headers n) (action : Action ι σ) :
    ∃ more, Archive name (headers ++ more) (n.step action) := by
  have same : ∀ next : Session ι σ, Archive name headers next →
      ∃ more, Archive name (headers ++ more) next :=
    fun next archive => ⟨[], by rwa [List.append_nil]⟩
  cases action with
  | register key handle => exact same _ (archive.register key handle)
  | update peer id => exact same _ (archive.of_same rfl rfl rfl rfl rfl rfl)
  | receive peer tag => exact same _ (archive.receive peer tag)
  | take token fresh now => exact archive.take token fresh now
  | restore token id => exact same _ (archive.restore token id)
  | work objects => exact same _ (archive.of_same rfl rfl rfl rfl rfl rfl)
  | put c => exact same _ (archive.put c)

end Archive

theorem exists_archive_run [Checkpointable σ] [DecidableEq ι] {name : String} {headers : List Header}
    {n : Session ι σ} (archive : Archive name headers n) (actions : List (Action ι σ)) :
    ∃ more, Archive name (headers ++ more) (n.run actions) := by
  induction actions generalizing headers n with
  | nil => exact ⟨[], by rwa [List.append_nil]⟩
  | cons action rest ih =>
    obtain ⟨first, archive⟩ := archive.step action
    obtain ⟨more, archive⟩ := ih archive
    rw [List.append_assoc] at archive
    exact ⟨first ++ more, archive⟩

end Session

end Rollback
