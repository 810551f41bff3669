import Rollback.Proofs.Network.Log
import Rollback.Proofs.Service.Steps

/-!
# The shared store of a network

The store of a network lists a header for each checkpoint that the log tells of, and in the history
of an instance they stand in the order of the log: a service never dates a checkpoint back.
-/

namespace Rollback

namespace Network

variable {ι σ : Type} {n next : Network ι σ} {storage : StoreId} {headers : List Header}

theorem exists_tracker_accept (s : Service ι) (source : String) (tag : Option DependencyTag) :
    ∃ tracker, accept s source tag = { s with tracker } := by
  unfold accept
  cases tag with
  | none => exact ⟨s.tracker, rfl⟩
  | some tag =>
    simp only [Service.receive]
    split
    · exact ⟨s.tracker, rfl⟩
    · exact ⟨_, rfl⟩

theorem current_accept_of_ne {s : Service ι} {source peer : String} (other : peer ≠ source)
    (tag : Option DependencyTag) :
    (accept s source tag).tracker.current[peer]? = s.tracker.current[peer]? := by
  cases tag with
  | none => rfl
  | some tag =>
    simp only [accept, Service.receive]
    split
    · rfl
    · simp [Service.update, Tracker.update, Std.ExtTreeMap.getElem?_insert, Ne.symm other]

theorem setService_self (n : Network ι σ) (name : String) :
    n.setService name (n.services name) = n := by
  have same : (fun other => if other = name then n.services name else n.services other) =
      n.services := by
    funext other
    split
    · rename_i here
      rw [here]
    · rfl
  rw [setService, same]

theorem forall_setService {P : String → Service ι → Prop} {name : String} {s : Service ι}
    (changed : P name s) (kept : ∀ other, other ≠ name → P other (n.services other))
    (other : String) : P other ((n.setService name s).services other) := by
  simp only [setService]
  split
  · subst other
    exact changed
  · exact kept other ‹_›

/-- Either a checkpoint is taken, or nothing changes. -/
theorem take_cases [Checkpointable σ] (n : Network ι σ) (name : String) (token : GateId)
    (fresh : CheckpointId) (now : Instant) :
    (∃ id s world, (n.services name).take n.world token fresh now = (.ok id, s, world) ∧
      n.take name token fresh now =
        ((n.setService name s).setWorld world).note (.took name id)) ∨
    n.take name token fresh now = n := by
  unfold Network.take
  cases took : (n.services name).take n.world token fresh now with
  | mk result after =>
    obtain ⟨s, world⟩ := after
    cases result with
    | ok id => exact Or.inl ⟨id, s, world, rfl, rfl⟩
    | error e =>
      obtain ⟨_, _, _, same, _⟩ | ⟨_, _, rfl, rfl⟩ := Service.take_cases took
      · contradiction
      · exact Or.inr (congrArg (setWorld · n.world) (n.setService_self name))

/-- The headers of the taken checkpoints, in the order of taking. They are what the store lists if
it can list all that it holds, and every service stands on the newest of its own. -/
structure Archive (storage : StoreId) (headers : List Header) (n : Network ι σ) : Prop where
  named : ∀ name, (n.services name).name = name
  shared : ∀ name, (n.services name).storage = storage
  remembers : ∀ name, 0 < (n.services name).retained
  last : ∀ name, (n.services name).history.getLast? = (takenBy n.log name).getLast?
  listed : ∀ found, (n.world.stores storage).headers none = .ok found → found.Perm headers
  taken : ∀ name, (headers.filter (·.owner = name)).map (·.id) = takenBy n.log name
  real : ∀ name, .nil ∉ takenBy n.log name
  dated : ∀ name, (n.services name).Dated (headers.filter (·.owner = name))

namespace Archive

theorem start {world : World ι σ} (empty : (world.stores storage).headers none = .ok [])
    (gates : String → GateId) (registries : String → Registry ι) (retained : String → Nat) :
    Archive storage [] (Network.start world storage gates registries retained) := by
  constructor
  case listed =>
    intro found listed
    cases empty.symm.trans listed
    exact .refl _
  case remembers =>
    intro name
    simp only [Network.start, Service.new]
    omega
  case dated =>
    intro name
    constructor <;> simp
  all_goals simp [Network.start, Service.new]

/-- Only trackers and events that are no checkpoints are new. -/
theorem of_tracking (archive : Archive storage headers n)
    (services : ∀ name, ∃ tracker, next.services name = { n.services name with tracker })
    (stores : next.world.stores = n.world.stores)
    (log : ∀ name, takenBy next.log name = takenBy n.log name) : Archive storage headers next := by
  constructor
  case named =>
    intro name
    obtain ⟨tracker, same⟩ := services name
    rw [same]
    exact archive.named name
  case shared =>
    intro name
    obtain ⟨tracker, same⟩ := services name
    rw [same]
    exact archive.shared name
  case remembers =>
    intro name
    obtain ⟨tracker, same⟩ := services name
    rw [same]
    exact archive.remembers name
  case last =>
    intro name
    obtain ⟨tracker, same⟩ := services name
    rw [same, log]
    exact archive.last name
  case listed =>
    rw [stores]
    exact archive.listed
  case taken =>
    intro name
    rw [log]
    exact archive.taken name
  case real =>
    intro name
    rw [log]
    exact archive.real name
  case dated =>
    intro name
    obtain ⟨tracker, same⟩ := services name
    rw [same]
    exact ⟨(archive.dated name).ordered, (archive.dated name).recent⟩

theorem send (archive : Archive storage headers n) (graph : Graph) (source target : String) :
    Archive storage headers (n.send graph source target) := by
  unfold Network.send
  split
  · refine archive.of_tracking (fun _ => ⟨_, rfl⟩) rfl fun name => ?_
    simp [Network.note, setChannel, takenBy_append, takenBy_sent]
  · exact archive

theorem consume (archive : Archive storage headers n) (source target : String) :
    Archive storage headers (n.consume source target) := by
  unfold Network.consume
  split
  · exact archive
  · refine archive.of_tracking ?_ rfl fun name => ?_
    · intro name
      simp only [Network.note, setService, setChannel]
      split
      · subst name
        exact exists_tracker_accept _ _ _
      · exact ⟨_, rfl⟩
    · simp [Network.note, setService, setChannel, takenBy_append, takenBy_consumed]

theorem filter_owner_concat (headers : List Header) (h : Header) (name : String) :
    (headers ++ [h]).filter (·.owner = name) =
      headers.filter (·.owner = name) ++ if h.owner = name then [h] else [] := by
  rw [List.filter_append]
  congr 1
  by_cases own : h.owner = name <;> simp [own]

/-- A checkpoint that is stored comes last. -/
theorem concat (archive : Archive storage headers n) {name : String} {c : Checkpoint} {store : Store}
    {now : Instant} (owned : c.header.owner = name) (real : c.header.id ≠ .nil)
    (next : c.header.createdAt = (n.services name).nextTime now)
    (stored : ((n.services name).store n.world).put c = (.ok (), store)) :
    Archive storage (headers ++ [c.header])
      (((n.setService name ((n.services name).remember c.header.id c.header.createdAt)).setWorld
        (n.world.setStore (n.services name).storage store)).note (.took name c.header.id)) := by
  constructor
  case named =>
    exact forall_setService (P := fun other s => s.name = other) (archive.named name)
      fun other _ => archive.named other
  case shared =>
    exact forall_setService (P := fun _ s => s.storage = storage) (archive.shared name)
      fun other _ => archive.shared other
  case remembers =>
    exact forall_setService (P := fun _ s => 0 < s.retained) (archive.remembers name)
      fun other _ => archive.remembers other
  case last =>
    refine forall_setService (P := fun other s => s.history.getLast? =
      (takenBy (n.log ++ [.took name c.header.id]) other).getLast?) ?_ fun other different => ?_
    · rw [takenBy_append, takenBy_took, if_pos rfl, List.getLast?_concat,
        Service.getLast?_remember (archive.remembers name)]
    · rw [takenBy_append, takenBy_took, if_neg (Ne.symm different), List.append_nil]
      exact archive.last other
  case listed =>
    intro found listed
    simp only [note, setWorld, archive.shared, World.setStore, if_pos] at listed
    rw [Service.store, archive.shared] at stored
    obtain ⟨before, listed, perm⟩ := Store.headers_put stored listed
    exact perm.trans (((archive.listed before listed).cons c.header).trans
      (List.perm_append_singleton c.header headers).symm)
  case taken =>
    intro other
    simp only [note, filter_owner_concat, takenBy_append, takenBy_took, List.map_append,
      setWorld, setService, archive.taken, owned]
    split <;> simp
  case real =>
    intro other member
    simp only [note, setWorld, setService, takenBy_append, takenBy_took, List.mem_append] at member
    obtain member | member := member
    · exact archive.real other member
    · split at member
      · exact real (List.mem_singleton.mp member).symm
      · contradiction
  case dated =>
    refine forall_setService (P := fun other s =>
      s.Dated ((headers ++ [c.header]).filter (·.owner = other))) ?_ fun other different => ?_
    · rw [filter_owner_concat, if_pos owned]
      exact (archive.dated name).remember next _
    · rw [filter_owner_concat, if_neg (owned ▸ Ne.symm different), List.append_nil]
      exact archive.dated other

theorem take [Checkpointable σ] (archive : Archive storage headers n) {name : String}
    {token : GateId} {fresh id : CheckpointId} (real : fresh ≠ .nil) {now : Instant}
    {s : Service ι} {world : World ι σ}
    (took : (n.services name).take n.world token fresh now = (.ok id, s, world)) :
    ∃ h, h.owner = name ∧ h.id = id ∧
      (∀ peer, peer ≠ name → h.dependencies[peer]? = (n.services name).tracker.current[peer]?) ∧
      s.tracker = (n.services name).tracker ∧
      Archive storage (headers ++ [h])
        (((n.setService name s).setWorld world).note (.took name id)) := by
  obtain ⟨_, snapshots, store, same, rfl, stored, rfl, rfl⟩ | ⟨e, failed, _⟩ :=
    Service.take_cases took
  · cases Except.ok.inj same
    refine ⟨_, archive.named name, rfl, ?_, rfl, archive.concat (archive.named name) real rfl stored⟩
    intro peer other
    rw [Std.ExtTreeMap.getElem?_insert, if_neg]
    rw [Std.LawfulEqCmp.compare_eq_iff_eq, archive.named]
    exact Ne.symm other
  · contradiction

end Archive

end Network

end Rollback
