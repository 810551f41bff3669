import Rollback.Proofs.Network.Channels
import Rollback.Proofs.Recovery.Greatest
import Rollback.Snapshot.Cell

/-!
# No orphans

A tag names the newest checkpoint of the sender, and since the messages of one sender come in order,
the last tag is the newest one that came. So every checkpoint records, for each message that its
owner had consumed, a checkpoint of the sender at least as new as the one before the sending
(`Informed`). A line that is consistent with these records leaves no message orphaned
(`no_orphan_of_line`).
-/

namespace Rollback

namespace Network

variable {ι σ : Type} {n next : Network ι σ} {graph : Graph} {storage : StoreId}
  {headers : List Header}

/-- What trackers and stored checkpoints know of the messages that were consumed. -/
structure Informed (headers : List Header) (n : Network ι σ) : Prop where
  tracked : ∀ name, Knows n.log n.log name (n.services name).tracker.current
  recorded : ∀ (before : Nat) name id, n.log[before]? = some (.took name id) →
    ∃ h ∈ headers, h.owner = name ∧ h.id = id ∧
      Knows n.log (n.log.take before) name h.dependencies

namespace Informed

theorem start {world : World ι σ} (gates : String → GateId) (registries : String → Registry ι)
    (retained : String → Nat) :
    Informed [] (Network.start world storage gates registries retained) := by
  constructor <;> simp [Network.start, Knows]

/-- Stored checkpoints still know what they knew, and are joined by those that were just taken. -/
theorem recorded_append (informed : Informed headers n) (orderly : Orderly graph n) {e : Event}
    (more : List Header) (fresh : ∀ name id, e = .took name id → ∃ h ∈ more, h.owner = name ∧
      h.id = id ∧ Knows n.log n.log name h.dependencies) (before : Nat) (name : String)
    (id : CheckpointId) (took : (n.log ++ [e])[before]? = some (.took name id)) :
    ∃ h ∈ headers ++ more, h.owner = name ∧ h.id = id ∧
      Knows (n.log ++ [e]) ((n.log ++ [e]).take before) name h.dependencies := by
  obtain inside | outside := Nat.lt_or_ge before n.log.length
  · rw [List.getElem?_append_left inside] at took
    obtain ⟨h, member, owned, named, knows⟩ := informed.recorded before name id took
    rw [List.take_append_of_le_length (Nat.le_of_lt inside)]
    exact ⟨h, List.mem_append_left _ member, owned, named,
      knows.append (fun _ _ met => orderly.causal.place_lt (List.mem_of_mem_take met)) e⟩
  · rw [List.getElem?_append_right outside, List.getElem?_singleton] at took
    split at took
    · rename_i last
      obtain ⟨h, member, owned, named, knows⟩ := fresh name id (Option.some.inj took)
      have place : before = n.log.length := by omega
      rw [place, List.take_left]
      exact ⟨h, List.mem_append_right _ member, owned, named,
        knows.append (fun _ _ met => orderly.causal.place_lt met) e⟩
    · contradiction

theorem send (informed : Informed headers n) (orderly : Orderly graph n) (source target : String) :
    Informed headers (n.send graph source target) := by
  unfold Network.send
  split
  · constructor
    · intro name
      refine ((informed.tracked name).append (fun _ _ met => orderly.causal.place_lt met) _).of_seen ?_
      intro peer place member
      simpa [Network.note, setChannel] using member
    · intro before name id took
      have recorded := informed.recorded_append orderly [] (by simp) before name id took
      rwa [List.append_nil] at recorded
  · exact informed

/-- The tag of a message names the checkpoint with the last number that its sender had given. -/
theorem current_accept_self (orderly : Orderly graph n) (archive : Archive storage headers n)
    {source target : String} {parcel : Parcel} (waits : parcel ∈ n.channels source target)
    (count : 0 < takenUpTo n.log parcel.place source) :
    ∃ id, (takenBy n.log source)[takenUpTo n.log parcel.place source - 1]? = some id ∧
      (accept (n.services target) source parcel.tag).tracker.current[source]? = some id := by
  have tagged := (orderly.waiting source target parcel waits).2
  cases last : (takenBy (n.log.take parcel.place) source).getLast? with
  | none =>
    rw [takenUpTo, List.getLast?_eq_none_iff.mp last] at count
    contradiction
  | some id =>
    have stands : (takenBy n.log source)[takenUpTo n.log parcel.place source - 1]? = some id := by
      rw [List.getLast?_eq_getElem?] at last
      exact getElem?_takenBy_of_take last
    have real : id ≠ .nil := by
      rintro rfl
      exact archive.real source (List.mem_of_getElem? stands)
    have kept : (DependencyTag.mk id).checkpoint.isNil = false := by
      simpa [CheckpointId.isNil] using real
    refine ⟨id, stands, ?_⟩
    rw [tagged, last, Option.map_some, accept, Service.receive, kept]
    simp [Service.update, Tracker.update]

/-- The last tag that came with a message of a sender is the newest one that came. -/
theorem accept_knows (informed : Informed headers n) (orderly : Orderly graph n)
    (archive : Archive storage headers n) {source target : String} {parcel : Parcel}
    {rest : List Parcel} (waits : n.channels source target = parcel :: rest) :
    Knows n.log (n.log ++ [.consumed source target parcel.place]) target
      (accept (n.services target) source parcel.tag).tracker.current := by
  have first : parcel ∈ n.channels source target := by simp [waits]
  intro peer place other met number less
  by_cases same : peer = source
  · subst same
    have order : place ≤ parcel.place := by
      obtain met | same := List.mem_append.mp met
      · exact Nat.le_of_lt (orderly.consumedFirst peer target place met parcel first)
      · cases List.mem_singleton.mp same
        exact Nat.le_refl _
    have count := Nat.lt_of_lt_of_le less (takenUpTo_mono order peer)
    obtain ⟨id, stands, recorded⟩ :=
      current_accept_self orderly archive first (Nat.zero_lt_of_lt count)
    exact ⟨_, id, Nat.le_sub_one_of_lt count, stands, recorded⟩
  · have met : .consumed peer target place ∈ n.log := by
      obtain met | this := List.mem_append.mp met
      · exact met
      · cases List.mem_singleton.mp this
        exact absurd rfl same
    rw [current_accept_of_ne same]
    exact informed.tracked target peer place other met number less

theorem consume (informed : Informed headers n) (orderly : Orderly graph n)
    (archive : Archive storage headers n) (source target : String) :
    Informed headers (n.consume source target) := by
  unfold Network.consume
  cases waits : n.channels source target with
  | nil => exact informed
  | cons parcel rest =>
    have inside := (orderly.waiting source target parcel (by simp [waits])).1
    constructor
    · intro name
      simp only [Network.note, setService, setChannel]
      split
      · subst name
        refine (informed.accept_knows orderly archive waits).append ?_ _
        intro peer place met
        obtain met | same := List.mem_append.mp met
        · exact orderly.causal.place_lt met
        · cases List.mem_singleton.mp same
          exact inside
      · rename_i different
        refine ((informed.tracked name).append (fun _ _ met => orderly.causal.place_lt met) _).of_seen ?_
        intro peer place member
        obtain member | same := List.mem_append.mp member
        · exact member
        · cases List.mem_singleton.mp same
          exact absurd rfl different
    · intro before name id took
      have recorded := informed.recorded_append orderly [] (by simp) before name id took
      rwa [List.append_nil] at recorded

theorem take [Checkpointable σ] (informed : Informed headers n) (orderly : Orderly graph n)
    {name : String} {id : CheckpointId} {s : Service ι} {world : World ι σ} {h : Header}
    (owned : h.owner = name) (named : h.id = id)
    (peers : ∀ peer, peer ≠ name → h.dependencies[peer]? =
      (n.services name).tracker.current[peer]?)
    (tracker : s.tracker = (n.services name).tracker) :
    Informed (headers ++ [h])
      (((n.setService name s).setWorld world).note (.took name id)) := by
  constructor
  · intro other
    have same : ((n.setService name s).services other).tracker = (n.services other).tracker := by
      simp only [setService]
      split
      · subst other
        exact tracker
      · rfl
    change Knows (n.log ++ [_]) (n.log ++ [_]) other ((n.setService name s).services other).tracker.current
    rw [same]
    refine ((informed.tracked other).append (fun _ _ met => orderly.causal.place_lt met) _).of_seen ?_
    intro peer place member
    simpa using member
  · apply informed.recorded_append orderly
    rintro _ _ ⟨⟩
    refine ⟨h, List.mem_singleton_self h, owned, named, ?_⟩
    intro peer place other met number less
    rw [peers peer other]
    exact informed.tracked name peer place other met number less

end Informed

/-! ## Whole runs -/

variable [Checkpointable σ]

theorem exists_informed_step {n : Network ι σ} (archive : Archive storage headers n)
    (orderly : Orderly graph n) (informed : Informed headers n) (action : Action ι σ) :
    ∃ headers, Archive storage headers (step graph n action) ∧
      Orderly graph (step graph n action) ∧ Informed headers (step graph n action) := by
  cases action with
  | take name token fresh real now =>
    have orderly' := orderly.take name token fresh now
    obtain ⟨id, s, world, took, same⟩ | same := n.take_cases name token fresh now
    · rw [same] at orderly'
      obtain ⟨h, owned, named, peers, tracker, archive'⟩ := archive.take real took
      rw [step, same]
      exact ⟨_, archive', orderly', informed.take orderly owned named peers tracker⟩
    · rw [step, same]
      exact ⟨headers, archive, orderly, informed⟩
  | send source target =>
    exact ⟨headers, archive.send graph source target, orderly.send archive source target,
      informed.send orderly source target⟩
  | consume source target =>
    exact ⟨headers, archive.consume source target, orderly.consume source target,
      informed.consume orderly archive source target⟩
  | work objects =>
    exact ⟨headers, archive.of_tracking (fun _ => ⟨_, rfl⟩) rfl fun _ => rfl,
      ⟨orderly.causal, orderly.edges, orderly.waiting, orderly.inOrder, orderly.consumedFirst⟩,
      ⟨informed.tracked, informed.recorded⟩⟩

theorem exists_informed_run {n : Network ι σ} (archive : Archive storage headers n)
    (orderly : Orderly graph n) (informed : Informed headers n) (actions : List (Action ι σ)) :
    ∃ headers, Archive storage headers (run graph n actions) ∧
      Orderly graph (run graph n actions) ∧ Informed headers (run graph n actions) := by
  induction actions generalizing n headers with
  | nil => exact ⟨headers, archive, orderly, informed⟩
  | cons action rest ih =>
    obtain ⟨_, archive, orderly, informed⟩ := exists_informed_step archive orderly informed action
    exact ih archive orderly informed

/-! ## Lines -/

section Lines

omit [Checkpointable σ]

variable {found : List Header} {c : Chronicle} {failed : List String} {line : Line}

/-- The history of an instance has its checkpoints in the order of taking. -/
theorem Archive.history_eq (archive : Archive storage headers n) (same : found.Perm headers)
    (accepted : Chronicle.ofHeaders found graph = .ok c) (name : String) :
    c.history name = headers.filter (·.owner = name) := by
  apply Chronicle.eq_of_perm_of_pairwise
  · rw [Chronicle.history_of_accepted accepted]
    exact ((Chronicle.sorted_perm found).trans same).filter _
  · exact Chronicle.history_pairwise accepted name
  · exact (archive.dated name).ordered.imp Header.isOlder_of_createdAt

theorem Archive.ids_eq (archive : Archive storage headers n) (same : found.Perm headers)
    (accepted : Chronicle.ofHeaders found graph = .ok c) (name : String) :
    (c.history name).map (·.id) = takenBy n.log name := by
  rw [archive.history_eq same accepted, archive.taken]

theorem Archive.real_of_history (archive : Archive storage headers n) (same : found.Perm headers)
    (accepted : Chronicle.ofHeaders found graph = .ok c) {name : String} {number : Nat} {h : Header}
    (stands : (c.history name)[number]? = some h) : h.id ≠ .nil := by
  intro none
  apply archive.real name
  rw [← archive.ids_eq same accepted, ← none]
  exact List.mem_map_of_mem (List.mem_of_getElem? stands)

/-- An instance is put on the checkpoint whose number says how many it had taken before. -/
theorem Archive.selected_eq (archive : Archive storage headers n) (same : found.Perm headers)
    (accepted : Chronicle.ofHeaders found graph = .ok c) {selected : String → Nat}
    (isLine : c.IsLineOf failed selected line) {name : String} {id : CheckpointId} {before : Nat}
    (selects : line.checkpointFor name = some id) (took : n.log[before]? = some (.took name id)) :
    selected name = takenUpTo n.log before name := by
  have ids := archive.ids_eq same accepted name
  have distinct : (takenBy n.log name).Nodup := ids ▸ Chronicle.history_distinct accepted name
  obtain ⟨_, h, stands, named⟩ := (isLine name id).mp (Option.filter_eq_some_iff.mp selects).1
  have here : (takenBy n.log name)[selected name]? = some id := by
    rw [← ids, List.getElem?_map, stands, Option.map_some, named]
  exact (List.getElem?_inj (List.getElem?_eq_some_iff.mp here).1 distinct).mp
    (here.trans (getElem?_takenBy took).symm)

/-- A checkpoint that was taken after a message was consumed records one that its sender had taken
before the sending, or a newer one. -/
theorem Informed.exists_recorded (informed : Informed headers n) (archive : Archive storage headers n)
    (same : found.Perm headers) (accepted : Chronicle.ofHeaders found graph = .ok c)
    {source target : String} (other : source ≠ target) {position place met after number : Nat}
    {h : Header} (stands : (c.history target)[position]? = some h)
    (happened : n.log[met]? = some (.consumed source target place)) (later : met < after)
    (took : n.log[after]? = some (.took target h.id)) (less : number < takenUpTo n.log place source) :
    ∃ newer k, number ≤ newer ∧ (c.history source)[newer]? = some k ∧
      h.dependencies[source]? = some k.id := by
  obtain ⟨h', member, owned, named, knows⟩ := informed.recorded after target h.id took
  have equal : h' = h := by
    have mine := ((Chronicle.mem_history accepted).mp (List.mem_of_getElem? stands)).1
    exact (Chronicle.distinct_of_accepted accepted).eq_of_id (same.mem_iff.mpr member) mine named
  subst equal
  have seen : .consumed source target place ∈ n.log.take after := by
    rw [List.mem_take_iff_getElem]
    obtain ⟨within, this⟩ := List.getElem?_eq_some_iff.mp happened
    exact ⟨met, by omega, this⟩
  obtain ⟨newer, id, order, stands', recorded⟩ := knows source place other seen number less
  rw [← archive.ids_eq same accepted, List.getElem?_map, Option.map_eq_some_iff] at stands'
  obtain ⟨k, stands', rfl⟩ := stands'
  exact ⟨newer, k, order, stands', recorded⟩

/-- What a consistent line selects has consumed nothing that the sender would send again. -/
theorem not_isOrphan (archive : Archive storage headers n) (orderly : Orderly graph n)
    (informed : Informed headers n) (same : found.Perm headers)
    (accepted : Chronicle.ofHeaders found graph = .ok c) (recovers : c.recover failed = .ok line)
    (place : Nat) : ¬ IsOrphan n.log line place := by
  rintro ⟨source, target, sent, ⟨id, selects, before, order, took⟩, met, happened, stays⟩
  obtain ⟨stored, selected, greatest, isLine⟩ := Chronicle.greatest_of_recover accepted recovers
  have number := archive.selected_eq same accepted isLine selects took
  have sentLater := takenUpTo_lt took order
  have metLater := orderly.causal met source target place happened
  by_cases own : source = target
  · subst own
    obtain ⟨after, later, again⟩ := stays id selects
    have distinct : (takenBy n.log source).Nodup :=
      archive.ids_eq same accepted source ▸ Chronicle.history_distinct accepted source
    have := before_eq_of_took distinct took again
    omega
  have edge := orderly.edges source target (List.mem_of_getElem? sent)
  have part : ∀ name, name = source ∨ name = target → c.TakesPart failed name := by
    intro name ends
    refine (Chronicle.takesPart_iff accepted).mpr (Or.inl (Graph.mem_names.mpr (Or.inr ⟨_, edge, ?_⟩)))
    exact ends.imp Eq.symm Eq.symm
  have newer := greatest.consistent.newer target (part _ (Or.inr rfl)) source (part _ (Or.inl rfl)) own
  obtain inside | ⟨top, keeps⟩ := greatest.consistent.isPosition target (part _ (Or.inr rfl))
  · -- the receiver goes back to a checkpoint that recorded a newer one of the sender
    obtain ⟨h, stands⟩ : ∃ h, (c.history target)[selected target]? = some h :=
      ⟨_, List.getElem?_eq_getElem inside⟩
    have goesBack : line.checkpointFor target = some h.id :=
      Option.filter_eq_some_iff.mpr ⟨(isLine target h.id).mpr ⟨part _ (Or.inr rfl), h, stands, rfl⟩,
        by simpa using archive.real_of_history same accepted stands⟩
    obtain ⟨after, later, took'⟩ := stays h.id goesBack
    obtain ⟨position, k, atLeast, stands', recorded⟩ := informed.exists_recorded archive same accepted
      own stands happened later took' sentLater
    have := newer k.id (archive.real_of_history same accepted stands') (.stored stands recorded)
      position k stands' rfl
    omega
  · -- the receiver keeps its live state, which stands on the newest checkpoint of the sender
    obtain ⟨newest, last, latest⟩ := Chronicle.exists_newest (stored source (part _ (Or.inl rfl)))
    rw [top] at newer
    have above := newer _ (archive.real_of_history same accepted last)
      (.live keeps ((Chronicle.graph_of_accepted accepted).symm ▸ edge) latest) _ _ last rfl
    have below := (List.getElem?_eq_some_iff.mp (getElem?_takenBy took)).1
    rw [← archive.ids_eq same accepted, List.length_map] at below
    omega

end Lines

/-- A recovery line that any of the services computes leaves no message orphaned. -/
theorem no_orphan_of_line {world : World ι σ} {storage : StoreId}
    (empty : (world.stores storage).headers none = .ok []) (graph : Graph)
    (gates : String → GateId) (registries : String → Registry ι) (retained : String → Nat)
    (actions : List (Action ι σ)) {n : Network ι σ}
    (runs : n = run graph (start world storage gates registries retained) actions)
    {name : String} {failed : List String} {line : Line}
    (computes : (n.services name).line n.world failed graph = .ok line) (place : Nat) :
    ¬ IsOrphan n.log line place := by
  obtain ⟨headers, archive, orderly, informed⟩ := exists_informed_run
    (Archive.start empty gates registries retained) (Orderly.start gates registries retained)
    (Informed.start gates registries retained) actions
  rw [← runs] at archive orderly informed
  obtain ⟨found, c, listed, accepted, recovers⟩ := Service.line_eq_ok_iff.mp computes
  rw [Service.store, archive.shared] at listed
  exact not_isOrphan archive orderly informed (archive.listed found listed) accepted recovers place

/-- A sink takes a second checkpoint after it has consumed what the source sent after its first. -/
def consumingRun : List (Action Empty Cell) := [
  .take "source" 0 (.ofDigit 1) (by decide) Instant.epoch.tick,
  .take "sink" 0 (.ofDigit 2) (by decide) Instant.epoch.tick,
  .send "source" "sink",
  .consume "source" "sink",
  .take "sink" 0 (.ofDigit 3) (by decide) Instant.epoch.tick]

def consumed : Network Empty Cell :=
  run Chronicle.oneEdge (start .initial 0 (fun _ => 0) (fun _ => .empty) fun _ => 16) consumingRun

theorem no_orphan_of_consumed :
    (consumed.services "sink").line consumed.world ["source"] Chronicle.oneEdge =
      .ok (Chronicle.lineOf (.ofDigit 1) (.ofDigit 2)) ∧
    .consumed "source" "sink" 2 ∈ consumed.log ∧
    ∀ place, ¬ IsOrphan consumed.log (Chronicle.lineOf (.ofDigit 1) (.ofDigit 2)) place := by
  have empty : ((World.initial : World Empty Cell).stores 0).headers none = .ok [] := rfl
  have listed : ((consumed.services "sink").store consumed.world).headers none =
      .ok Chronicle.sourceAndSink := by decide +kernel
  have computes : (consumed.services "sink").line consumed.world ["source"] Chronicle.oneEdge =
      .ok (Chronicle.lineOf (.ofDigit 1) (.ofDigit 2)) :=
    Service.line_eq_ok_iff.mpr
      ⟨_, _, listed, Chronicle.ofHeaders_sourceAndSink, Chronicle.recover_sourceAndSink⟩
  exact ⟨computes, by decide +kernel, no_orphan_of_line empty _ _ _ _ consumingRun rfl computes⟩

end Network

end Rollback
