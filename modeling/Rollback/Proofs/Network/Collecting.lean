import Rollback.Proofs.Network.Orphans
import Rollback.Proofs.Service.Collecting

/-!
# Collecting garbage in a network

When the instances have collected their garbage after a line, their store lists what the line does
not outdate (`collectAll_eq`). In which order they were told of each other's checkpoints before does
not matter. A recovery that goes back to nothing of the rest is as it was. A line
of all instances, or of more failures, outdates nothing that a recovery goes back to; another one may
(`line_after_collecting`).
-/

namespace Rollback

namespace Network

variable {ι σ : Type} {n : Network ι σ} {storage : StoreId} {found headers : List Header}
  {graph : Graph} {line : Line}

/-- The instances collect after a line, one after the other, up to the first that fails. -/
def collectAll (n : Network ι σ) (line : Line) : List String → Outcome (Network ι σ)
  | [] => .ok n
  | name :: rest =>
    match (n.services name).collect n.world line with
    | (.ok _, s, world) => ((n.setService name s).setWorld world).collectAll line rest
    | (.error e, _, _) => .error e

/-- The services share a store that keeps every checkpoint under its own id and lists these
headers. -/
structure Lists (storage : StoreId) (found : List Header) (n : Network ι σ) : Prop where
  named : ∀ name, (n.services name).name = name
  shared : ∀ name, (n.services name).storage = storage
  keyed : (n.world.stores storage).Keyed
  listed : (n.world.stores storage).headers none = .ok found

/-! ## Networks without order -/

/-- The services go on: one takes a checkpoint, or is handed a tag, whichever it is and whoever is
said to have sent it, or objects change. What is on its way and what was logged has no part in it. -/
inductive Exchanges [Checkpointable σ] (n : Network ι σ) : Network ι σ → Prop where
  | refl : n.Exchanges n
  | take {m : Network ι σ} (earlier : n.Exchanges m) (name : String) (token : GateId)
    {fresh : CheckpointId} (real : fresh ≠ .nil) (now : Instant) :
    n.Exchanges (m.take name token fresh now)
  | hand {m : Network ι σ} (earlier : n.Exchanges m) (source target : String) (tag : DependencyTag) :
    n.Exchanges (m.setService target ((m.services target).receive source tag))
  | work {m : Network ι σ} (earlier : n.Exchanges m) (objects : Heap ι σ) :
    n.Exchanges (m.setWorld { m.world with objects })
  | travel {m : Network ι σ} (earlier : n.Exchanges m) (channels : String → String → List Parcel)
    (log : List Event) : n.Exchanges { m with channels, log }

section Exchanges

variable [Checkpointable σ] {m : Network ι σ}

theorem Exchanges.send (earlier : n.Exchanges m) (graph : Graph) (source target : String) :
    n.Exchanges (m.send graph source target) := by
  unfold Network.send
  split
  · exact earlier.travel _ _
  · exact earlier

theorem Exchanges.consume (earlier : n.Exchanges m) (source target : String) :
    n.Exchanges (m.consume source target) := by
  unfold Network.consume
  split
  · exact earlier
  · rename_i parcel rest _
    cases told : parcel.tag with
    | none =>
      have same : m.setService target (accept (m.services target) source none) = m :=
        m.setService_self target
      rw [same]
      exact earlier.travel _ _
    | some tag => exact (earlier.hand source target tag).travel _ _

/-- What services do that send their tags along the edges of a graph, in the order of sending. -/
theorem Exchanges.run (earlier : n.Exchanges m) (graph : Graph) (actions : List (Action ι σ)) :
    n.Exchanges (m.run graph actions) := by
  induction actions generalizing m with
  | nil => exact earlier
  | cons action rest ih =>
    apply ih
    cases action with
    | take name token fresh real now => exact earlier.take name token real now
    | send source target => exact earlier.send graph source target
    | consume source target => exact earlier.consume source target
    | work objects => exact earlier.work objects

end Exchanges

/-- The services share a store that keeps every checkpoint under its own id, and none under the nil
id. -/
structure Shares (storage : StoreId) (n : Network ι σ) : Prop where
  named : ∀ name, (n.services name).name = name
  shared : ∀ name, (n.services name).storage = storage
  keyed : (n.world.stores storage).Keyed
  real : ∀ h, (n.world.stores storage).Holds h → h.id ≠ .nil

namespace Shares

theorem start {world : World ι σ} (empty : (world.stores storage).headers none = .ok [])
    (gates : String → GateId) (registries : String → Registry ι) (retained : String → Nat) :
    Shares storage (Network.start world storage gates registries retained) where
  named _ := rfl
  shared _ := rfl
  keyed := Store.keyed_of_headers_nil empty
  real _ holds := absurd ((Store.mem_headers empty).mpr holds) List.not_mem_nil

/-- A service may change in all but its name and its store. -/
theorem setService (shares : Shares storage n) {name : String} {s : Service ι}
    (named : s.name = name) (shared : s.storage = storage) :
    Shares storage (n.setService name s) where
  named := forall_setService (P := fun other s => s.name = other) named
    fun other _ => shares.named other
  shared := forall_setService (P := fun _ s => s.storage = storage) shared
    fun other _ => shares.shared other
  keyed := shares.keyed
  real := shares.real

theorem take [Checkpointable σ] (shares : Shares storage n) (name : String) (token : GateId)
    {fresh : CheckpointId} (real : fresh ≠ .nil) (now : Instant) :
    Shares storage (n.take name token fresh now) := by
  obtain ⟨id, s, world, took, same⟩ | same := n.take_cases name token fresh now
  · rw [same]
    obtain ⟨_, _, store, _, rfl, stored, service, rfl⟩ | ⟨_, failed, _⟩ := Service.take_cases took
    · rw [Service.store, shares.shared] at stored
      have next : (n.world.setStore (n.services name).storage store).stores storage = store := by
        rw [shares.shared, World.stores_setStore]
      have kept : Shares storage (n.setService name s) :=
        shares.setService (service ▸ shares.named name) (service ▸ shares.shared name)
      refine ⟨kept.named, kept.shared, ?_, ?_⟩
      · change ((n.world.setStore _ store).stores storage).Keyed
        rw [next]
        exact shares.keyed.put stored
      · intro h holds
        change ((n.world.setStore _ store).stores storage).Holds h at holds
        rw [next] at holds
        obtain rfl | before := Store.holds_put stored holds
        · exact real
        · exact shares.real h before
    · cases failed
  · rwa [same]

theorem hand (shares : Shares storage n) (source target : String) (tag : DependencyTag) :
    Shares storage (n.setService target ((n.services target).receive source tag)) := by
  obtain ⟨tracker, same⟩ := exists_tracker_accept (n.services target) source (some tag)
  have same : (n.services target).receive source tag = { n.services target with tracker } := same
  rw [same]
  exact shares.setService (shares.named target) (shares.shared target)

theorem exchanges [Checkpointable σ] {m : Network ι σ} (shares : Shares storage n)
    (exchanges : n.Exchanges m) : Shares storage m := by
  induction exchanges with
  | refl => exact shares
  | take _ name token real now ih => exact ih.take name token real now
  | hand _ source target tag ih => exact ih.hand source target tag
  | work _ _ ih => exact ⟨ih.named, ih.shared, ih.keyed, ih.real⟩
  | travel _ _ _ ih => exact ⟨ih.named, ih.shared, ih.keyed, ih.real⟩

theorem lists (shares : Shares storage n)
    (listed : (n.world.stores storage).headers none = .ok found) : Lists storage found n :=
  ⟨shares.named, shares.shared, shares.keyed, listed⟩

end Shares

/-! ## Collections -/

namespace Lists

theorem collect (lists : Lists storage found n) (line : Line) (name : String) :
    ∃ count s world left, (n.services name).collect n.world line = (.ok count, s, world) ∧
      Lists storage left ((n.setService name s).setWorld world) ∧
      left.Perm (found.filter fun h => !(h.owner = name && line.outdates found h)) := by
  have here : (n.services name).store n.world = n.world.stores storage := by
    rw [Service.store, lists.shared]
  have keyed : ((n.services name).store n.world).Keyed := here ▸ lists.keyed
  have listed : ((n.services name).store n.world).headers none = .ok found := here ▸ lists.listed
  obtain ⟨store, collects, sheds⟩ := Service.collect_eq keyed listed line
  obtain ⟨left, listed', perm⟩ := sheds.listed
  refine ⟨_, _, _, left, collects, ?_, ?_⟩
  · constructor
    · exact forall_setService (P := fun other s => s.name = other) (lists.named name)
        fun other _ => lists.named other
    · exact forall_setService (P := fun _ s => s.storage = storage) (lists.shared name)
        fun other _ => lists.shared other
    · simpa [setWorld, World.setStore, lists.shared] using sheds.keyed
    · simpa [setWorld, World.setStore, lists.shared] using listed'
  · rwa [Service.filter_garbage (keyed.distinct listed), lists.named] at perm

theorem collectAll_eq (lists : Lists storage found n) (line : Line) (names : List String) :
    ∃ m left, n.collectAll line names = .ok m ∧ Lists storage left m ∧
      left.Perm (found.filter fun h => !(h.owner ∈ names && line.outdates found h)) := by
  induction names generalizing n found with
  | nil => exact ⟨n, found, rfl, lists, by simp⟩
  | cons name rest ih =>
    obtain ⟨_, s, world, left, collects, lists', perm⟩ := lists.collect line name
    obtain ⟨m, left', others, lists'', perm'⟩ := ih lists'
    refine ⟨m, left', by simp only [collectAll, collects, others], lists'', ?_⟩
    have same : ∀ h, line.outdates left h = line.outdates found h :=
      Line.outdates_of_perm perm (lists.keyed.distinct lists.listed)
        fun h gone => (Bool.and_eq_true_iff.mp gone).2
    simp only [same] at perm'
    refine perm'.trans ((perm.filter _).trans (.of_eq ?_))
    rw [List.filter_filter]
    apply List.filter_congr
    intro h _
    by_cases own : h.owner = name <;> cases line.outdates found h <;> simp [own]

/-- When all instances that the line takes back have collected, what it outdates is gone. -/
theorem exists_collectAll (lists : Lists storage found n) {names : List String}
    (all : ∀ name ∈ line.affected, name ∈ names) :
    ∃ m left, n.collectAll line names = .ok m ∧ Lists storage left m ∧
      left.Perm (found.filter fun h => !line.outdates found h) := by
  obtain ⟨m, left, collects, lists', perm⟩ := lists.collectAll_eq line names
  refine ⟨m, left, collects, lists', perm.trans (.of_eq ?_)⟩
  apply List.filter_congr
  intro h _
  cases outdated : line.outdates found h with
  | false => simp
  | true =>
    obtain ⟨kept, _, owned, chosen, _⟩ := Line.outdates_eq_true_iff.mp outdated
    have affected := Line.mem_affected.mpr (by rw [chosen]; rfl)
    simp [all h.owner affected]

theorem line_eq (lists : Lists storage found n) {name : String} {failed : List String}
    {c : Chronicle} (accepted : Chronicle.ofHeaders found graph = .ok c) :
    (n.services name).line n.world failed graph = c.recover failed := by
  rw [Service.line, Service.store, lists.shared, lists.listed]
  simp [bind, Except.bind, accepted]

end Lists

/-- After the instances have collected after a line, a recovery ends as before if its line goes back
to nothing that was outdated, and otherwise it finds no consistent line. It goes back to nothing that
was outdated if it is one of fewer failures, or if all instances failed when the line was computed. -/
theorem line_after_collecting [Checkpointable σ] {world : World ι σ} {storage : StoreId}
    (empty : (world.stores storage).headers none = .ok [])
    (gates : String → GateId) (registries : String → Registry ι) (retained : String → Nat)
    {n : Network ι σ} (exchanges : (start world storage gates registries retained).Exchanges n)
    {name : String} {failed : List String} {topology : Graph} {line : Line}
    (computes : (n.services name).line n.world failed topology = .ok line) {names : List String}
    (all : ∀ name ∈ line.affected, name ∈ names) :
    ∃ found m, (n.world.stores storage).headers none = .ok found ∧
      n.collectAll line names = .ok m ∧
      ∀ (name : String) (failed' : List String) (other : Line),
        (n.services name).line n.world failed' topology = .ok other →
          (line.Spares found other → (m.services name).line m.world failed' topology = .ok other) ∧
          (¬ line.Spares found other → ∃ stuck,
            (m.services name).line m.world failed' topology = .error (.noConsistentLine stuck)) ∧
          (failed' ⊆ failed ∨
              (∀ name, name ∈ topology.names ∨ (∃ h ∈ found, h.owner = name) → name ∈ failed) →
            line.Spares found other) := by
  have shares := (Shares.start empty gates registries retained).exchanges exchanges
  obtain ⟨found, c, listed, accepted, recovers⟩ := Service.line_eq_ok_iff.mp computes
  rw [Service.store, shares.shared] at listed
  have lists := shares.lists listed
  have real : ∀ h ∈ found, h.id ≠ .nil :=
    fun h member => shares.real h ((Store.mem_headers listed).mp member)
  obtain ⟨m, left, collects, lists', perm⟩ := lists.exists_collectAll all
  obtain ⟨rest, without⟩ := Chronicle.exists_accepted_of_perm accepted perm
  refine ⟨found, m, listed, collects, ?_⟩
  intro name failed' other computes'
  rw [lists.line_eq accepted] at computes'
  rw [lists'.line_eq without]
  obtain ⟨found', lost⟩ := Chronicle.recover_without_outdated accepted real perm without computes'
  refine ⟨found', lost, ?_⟩
  intro worse
  refine Chronicle.spares_of_fewer accepted real ?_ recovers computes'
  obtain fewer | every := worse
  · exact fewer
  · intro name member
    exact every name ((Chronicle.mem_names accepted).mp
      (Chronicle.known_of_recover accepted computes' member))

/-! ## A sink that fails alone -/

/-- The sink goes back to its second checkpoint. -/
def sinkLine : Line := ⟨(∅ : Dependencies).insert "sink" (.ofDigit 3)⟩

theorem exchanges_consumed :
    (start (.initial : World Empty Cell) 0 (fun _ => 0) (fun _ => .empty) fun _ => 16).Exchanges
      consumed := Exchanges.refl.run Chronicle.oneEdge consumingRun

theorem lists_consumed : Lists 0 Chronicle.sourceAndSink consumed :=
  ((Shares.start rfl _ _ _).exchanges exchanges_consumed).lists (by decide +kernel)

theorem line_consumed_sink :
    (consumed.services "sink").line consumed.world ["sink"] Chronicle.oneEdge = .ok sinkLine := by
  rw [lists_consumed.line_eq Chronicle.ofHeaders_sourceAndSink]
  exact Chronicle.recover_of_lineWithin (n := 1) (by decide +kernel)

theorem line_consumed_source :
    (consumed.services "sink").line consumed.world ["source"] Chronicle.oneEdge =
      .ok (Chronicle.lineOf (.ofDigit 1) (.ofDigit 2)) := by
  rw [lists_consumed.line_eq Chronicle.ofHeaders_sourceAndSink]
  exact Chronicle.recover_sourceAndSink

theorem not_spares_sourceAndSink :
    ¬ sinkLine.Spares Chronicle.sourceAndSink (Chronicle.lineOf (.ofDigit 1) (.ofDigit 2)) := by
  unfold Line.Spares
  decide +kernel

theorem affected_sinkLine : ∀ name ∈ sinkLine.affected, name ∈ ["sink", "source"] := by
  decide +kernel

/-- When both have collected after a failure of the sink, that failure ends as before. A failure of
the source would take the sink back to its first checkpoint, which is gone. -/
theorem line_after_collecting_sink : ∃ m, consumed.collectAll sinkLine ["sink", "source"] = .ok m ∧
    (m.services "sink").line m.world ["sink"] Chronicle.oneEdge = .ok sinkLine ∧
    ∃ stuck, (m.services "sink").line m.world ["source"] Chronicle.oneEdge =
      .error (.noConsistentLine stuck) := by
  obtain ⟨found, m, listed, collects, after⟩ :=
    line_after_collecting rfl _ _ _ exchanges_consumed line_consumed_sink affected_sinkLine
  cases Except.ok.inj (lists_consumed.listed.symm.trans listed)
  obtain ⟨same, _, spares⟩ := after "sink" ["sink"] sinkLine line_consumed_sink
  obtain ⟨_, lost, _⟩ := after "sink" ["source"] _ line_consumed_source
  exact ⟨m, collects, same (spares (Or.inl fun _ member => member)), lost not_spares_sourceAndSink⟩

/-- Whatever recovery has found a line finds it again. -/
def KeepsLines (n m : Network ι σ) (topology : Graph) : Prop :=
  ∀ name failed line, (n.services name).line n.world failed topology = .ok line →
    (m.services name).line m.world failed topology = .ok line

/-- Not every line is found again after the line of another failure. -/
theorem not_keepsLines_consumed : ∃ line m,
    (consumed.services "sink").line consumed.world ["sink"] Chronicle.oneEdge = .ok line ∧
    consumed.collectAll line ["sink", "source"] = .ok m ∧
    ¬ KeepsLines consumed m Chronicle.oneEdge := by
  obtain ⟨m, left, collects, lists, perm⟩ := lists_consumed.exists_collectAll affected_sinkLine
  refine ⟨sinkLine, m, line_consumed_sink, collects, ?_⟩
  intro keeps
  have again := keeps "sink" ["source"] _ line_consumed_source
  obtain ⟨rest, without⟩ :=
    Chronicle.exists_accepted_of_perm Chronicle.ofHeaders_sourceAndSink perm
  obtain ⟨_, lost⟩ := Chronicle.recover_without_outdated Chronicle.ofHeaders_sourceAndSink
    (by decide) perm without Chronicle.recover_sourceAndSink
  obtain ⟨_, stuck⟩ := lost not_spares_sourceAndSink
  rw [lists.line_eq without, stuck] at again
  contradiction

end Network

end Rollback
