import Rollback.Proofs.Recovery.Greatest
import Rollback.Proofs.Recovery.Trimming
import Rollback.Scenario.Analysis

/-!
# Checkpoints that no recovery misses

A floor is a checkpoint of each of some instances such that none of them depends on a checkpoint of
a peer that is not below the peer's own floor. No search leaves the floor, so what is below can be
removed (`recover_eq_of_floor`). The worst line is a floor for good: later checkpoints and other
graphs do not change what its checkpoints depend on (`recover_without_prunable`).
-/

namespace Rollback

/-- A list in two parts, the first with what has a property that passes on to all in front. -/
theorem List.filter_append_filter_not {α : Type} {p : α → Bool} {before : α → α → Prop}
    (passes : ∀ a b, before a b → p b = true → p a = true) {l : List α}
    (ordered : l.Pairwise before) : l.filter p ++ l.filter (fun a => !p a) = l := by
  induction l with
  | nil => rfl
  | cons a rest ih =>
    obtain ⟨first, ordered⟩ := List.pairwise_cons.mp ordered
    cases holds : p a with
    | true => simp [holds, ih ordered]
    | false =>
      have none : rest.filter p = [] := by
        rw [List.filter_eq_nil_iff]
        intro b member held
        rw [passes a b (first b member) held] at holds
        contradiction
      have all := ih ordered
      rw [none, List.nil_append] at all
      simp [holds, none, all]

namespace Chronicle

/-- A checkpoint of each of some instances, such that what they depend on is below the checkpoint
of the instance that owns it. All that is removed is below as well. -/
structure IsFloor (headers : List Header) (removed : List Header)
    (floor : String → Option Header) : Prop where
  mem : ∀ name h, floor name = some h → h ∈ headers ∧ h.owner = name
  below : ∀ h ∈ removed, ∃ top, floor h.owner = some top ∧ h.isOlder top = true
  settled : ∀ name h, floor name = some h → ∀ peer id, h.dependencies[peer]? = some id →
    peer ≠ name → id ≠ .nil → ∀ k ∈ headers, k.owner = peer → k.id = id →
      ∃ top, floor peer = some top ∧ k.isOlder top = true

/-- The checkpoints of an instance that are below its floor. -/
def bottom (c : Chronicle) (floor : String → Option Header) (name : String) : List Header :=
  match floor name with
  | some top => (c.history name).filter (·.isOlder top)
  | none => []

variable {headers removed : List Header} {graph : Graph} {c rest : Chronicle}
  {floor : String → Option Header} {failed : List String} {reuse : Bool} {name : String} {h : Header}

theorem mem_bottom : h ∈ c.bottom floor name ↔
    h ∈ c.history name ∧ ∃ top, floor name = some top ∧ h.isOlder top = true := by
  unfold bottom
  cases floor name <;> simp

theorem liveDependencies_congr (graph : c.graph = rest.graph)
    (latest : ∀ name, c.latest name = rest.latest name) :
    c.liveDependencies name = rest.liveDependencies name := by
  simp only [liveDependencies, graph, latest]

/-! ## Without what was removed -/

theorem ofHeaders_filter (accepted : ofHeaders headers graph = .ok c) (removed : List Header) :
    ∃ rest, ofHeaders (headers.filter (· ∉ removed)) graph = .ok rest :=
  exists_accepted_of_perm accepted (.refl _)

section Removed

variable (accepted : ofHeaders headers graph = .ok c)
  (without : ofHeaders (headers.filter (· ∉ removed)) graph = .ok rest)
  (isFloor : IsFloor headers removed floor)

include accepted without

theorem history_without (name : String) :
    rest.history name = (c.history name).filter (· ∉ removed) :=
  history_of_perm accepted without (.refl _)

include isFloor

omit without in
theorem not_mem_removed (member : h ∈ c.history name)
    (above : ∀ top, floor name = some top → h.isOlder top = false) : h ∉ removed := by
  intro gone
  obtain ⟨top, floored, older⟩ := isFloor.below h gone
  rw [((mem_history accepted).mp member).2] at floored
  rw [above top floored] at older
  contradiction

omit without in
/-- The floor is the oldest of those that are not older than it. -/
theorem head?_upper {top : Header} (floored : floor name = some top) :
    ((c.history name).filter fun h => !h.isOlder top).head? = some top := by
  have inside : top ∈ (c.history name).filter fun h => !h.isOlder top := by
    rw [List.mem_filter]
    exact ⟨(mem_history accepted).mpr (isFloor.mem name top floored),
      by simp [Header.not_isOlder_self]⟩
  have ordered := (history_pairwise accepted name).filter fun h => !h.isOlder top
  cases upper : (c.history name).filter fun h => !h.isOlder top with
  | nil => simp [upper] at inside
  | cons first others =>
    have notOlder : first.isOlder top = false := by
      have member : first ∈ (c.history name).filter fun h => !h.isOlder top := by simp [upper]
      simpa using (List.mem_filter.mp member).2
    rw [upper] at inside ordered
    obtain rfl | later := List.mem_cons.mp inside
    · rfl
    · rw [(List.pairwise_cons.mp ordered).1 top later] at notOlder
      contradiction

/-- Only the bottom of a history has lost something. Where there is a floor, it stands directly above
the bottom. -/
theorem exists_upper (name : String) : ∃ upper,
    c.history name = c.bottom floor name ++ upper ∧
    rest.history name = (c.bottom floor name).filter (· ∉ removed) ++ upper ∧
    (∀ top, floor name = some top → upper.head? = some top) ∧
    (floor name = none → c.bottom floor name = []) := by
  rw [history_without accepted without]
  cases floored : floor name with
  | none =>
    have stays : (c.history name).filter (· ∉ removed) = c.history name := by
      rw [List.filter_eq_self]
      intro h member
      rw [decide_eq_true_eq]
      exact not_mem_removed accepted isFloor member (by simp [floored])
    have empty : c.bottom floor name = [] := by simp only [bottom, floored]
    exact ⟨c.history name, by rw [empty, List.nil_append],
      by rw [empty, stays, List.filter_nil, List.nil_append], by simp, fun _ => empty⟩
  | some top =>
    have parts : (c.history name).filter (·.isOlder top) ++
        (c.history name).filter (fun h => !h.isOlder top) = c.history name :=
      List.filter_append_filter_not (fun _ _ older => Header.isOlder_trans older)
        (history_pairwise accepted name)
    have stays : ((c.history name).filter fun h => !h.isOlder top).filter (· ∉ removed) =
        (c.history name).filter fun h => !h.isOlder top := by
      rw [List.filter_eq_self]
      intro h member
      obtain ⟨member, notOlder⟩ := List.mem_filter.mp member
      rw [decide_eq_true_eq]
      refine not_mem_removed accepted isFloor member ?_
      intro other same
      cases floored.symm.trans same
      simpa using notOlder
    refine ⟨(c.history name).filter fun h => !h.isOlder top, ?_, ?_, ?_, by simp⟩
    · simp only [bottom, floored, parts]
    · simp only [bottom, floored]
      rw [← stays, ← List.filter_append, parts]
    · rintro _ ⟨⟩
      exact head?_upper accepted isFloor floored

theorem latest_without (name : String) : c.latest name = rest.latest name := by
  obtain ⟨upper, here, there, first, empty⟩ := exists_upper accepted without isFloor name
  rw [latest, latest, here, there]
  cases floored : floor name with
  | none => simp [empty floored]
  | some top =>
    have above := first top floored
    cases upper with
    | nil => simp at above
    | cons h others =>
      rw [List.getLast?_append_of_ne_nil _ (List.cons_ne_nil h others),
        List.getLast?_append_of_ne_nil _ (List.cons_ne_nil h others)]

theorem history_without_eq_nil_iff (name : String) :
    c.history name = [] ↔ rest.history name = [] := by
  have same := latest_without accepted without isFloor name
  rw [latest, latest] at same
  rw [← List.getLast?_eq_none_iff, ← List.getLast?_eq_none_iff, same]

theorem names_without : c.names = rest.names := by
  apply NameMap.keys_congr
  intro name
  have known := mem_names_of_without accepted without
    (history_without_eq_nil_iff accepted without isFloor name).symm
  rw [names, names, Std.ExtTreeMap.mem_keys, Std.ExtTreeMap.mem_keys] at known
  exact known.symm

theorem lane_shares (name : String) :
    Lane.Shares (c.bottom floor name) ((c.bottom floor name).filter (· ∉ removed))
      (c.lane (NameSet.ofNames failed) reuse name) (rest.lane (NameSet.ofNames failed) reuse name) := by
  obtain ⟨upper, here, there, first, empty⟩ := exists_upper accepted without isFloor name
  have graphs : c.graph = rest.graph :=
    (graph_of_accepted accepted).trans (graph_of_accepted without).symm
  constructor
  · exact fun h member => (List.mem_filter.mp member).1
  · simp only [lane, liveDependencies_congr graphs (latest_without accepted without isFloor)]
  · exact history_distinct accepted name
  · refine ⟨upper, here, there, ?_⟩
    rintro rfl
    cases floored : floor name with
    | none => exact empty floored
    | some top => simpa using first top floored

theorem required_without (failed : NameSet) : c.required failed = rest.required failed := by
  rw [required, required, names_without accepted without isFloor]

theorem lanes_trim : Lanes.Trims (c.bottom floor)
    (fun name => (c.bottom floor name).filter (· ∉ removed))
    (c.lanes (NameSet.ofNames failed) reuse) (rest.lanes (NameSet.ofNames failed) reuse) := by
  constructor
  · intro name
    rw [mem_lanes, mem_lanes, TakesPart, TakesPart, names_without accepted without isFloor]
  · intro name lane lane' here there
    obtain ⟨_, rfl⟩ := getElem?_lanes_eq_some_iff.mp here
    obtain ⟨_, rfl⟩ := getElem?_lanes_eq_some_iff.mp there
    exact lane_shares accepted without isFloor name

omit without in
theorem floor_stands {top : Header} (floored : floor name = some top) :
    (c.history name)[(c.bottom floor name).length]? = some top := by
  obtain ⟨_, without⟩ := ofHeaders_filter accepted removed
  obtain ⟨upper, here, _, first, _⟩ := exists_upper accepted without isFloor name
  rw [here, List.getElem?_append_right (Nat.le_refl _), Nat.sub_self, ← List.head?_eq_getElem?]
  exact first top floored

omit without in
/-- A search that has not gone below the floor finds the floor settled. -/
theorem lanes_floor :
    Lanes.Floor (c.bottom floor) (c.lanes (NameSet.ofNames failed) reuse) := by
  intro cursors above name known nonempty
  obtain ⟨h, below⟩ := List.exists_mem_of_ne_nil _ nonempty
  obtain ⟨_, top, floored, _⟩ := mem_bottom.mp below
  have stands := floor_stands accepted isFloor floored
  rw [Lanes.settled_iff]
  intro _ candidate here selected peer id recorded other real
  obtain ⟨_, rfl⟩ := getElem?_lanes_eq_some_iff.mp here
  obtain ⟨k, same, rfl⟩ | ⟨level, _, _⟩ := getElem?_candidates.mp selected
  · cases Option.some.inj (stands.symm.trans same)
    rw [Lanes.meets_iff]
    intro _ position there place
    obtain ⟨part, rfl⟩ := getElem?_lanes_eq_some_iff.mp there
    obtain ⟨k, standsThere, named⟩ := (position?_eq_some_iff accepted).mp place
    obtain ⟨mem, owned⟩ := (mem_history accepted).mp (List.mem_of_getElem? standsThere)
    obtain ⟨top', floored', older⟩ :=
      isFloor.settled name _ floored peer id recorded other real k mem owned named
    -- older than the floor of its owner, so at the bottom of the owner's history
    have limit := above peer (mem_lanes.mpr part)
    have stands' := floor_stands accepted isFloor floored'
    by_contra high
    have order : (c.bottom floor peer).length ≤ position := by omega
    rw [not_isOlder_of_le accepted order stands' standsThere] at older
    contradiction
  · rw [level, List.getElem?_eq_none (Nat.le_refl _)] at stands
    contradiction

/-- Every recovery ends in the same way without the checkpoints below a floor. -/
theorem recover_eq_of_floor (failed : List String) (reuse : Bool) :
    rest.recover failed reuse = c.recover failed reuse := by
  have missing : (fun name => (rest.history name).isEmpty) =
      fun name => (c.history name).isEmpty := by
    funext name
    rw [Bool.eq_iff_iff, List.isEmpty_iff, List.isEmpty_iff]
    exact (history_without_eq_nil_iff accepted without isFloor name).symm
  simp only [recover, missing, required_without accepted without isFloor]
  cases (rest.required (NameSet.ofNames failed)).toList.find?
      fun name => (c.history name).isEmpty with
  | some name => rfl
  | none =>
    have trims : Lanes.Trims _ _ (c.lanes (NameSet.ofNames failed) reuse)
        (rest.lanes (NameSet.ofNames failed) reuse) := lanes_trim accepted without isFloor
    have agree := Lanes.settle_agrees trims (lanes_floor accepted isFloor) (Lanes.start_covers _)
      (Lanes.start_covers _) (Lanes.start_aligned trims)
    simp only [bind, Except.bind, pure, Except.pure]
    cases whole : Lanes.settle (c.lanes (NameSet.ofNames failed) reuse)
        (Lanes.start (c.lanes (NameSet.ofNames failed) reuse)) <;>
      cases trimmed : Lanes.settle (rest.lanes (NameSet.ofNames failed) reuse)
        (Lanes.start (rest.lanes (NameSet.ofNames failed) reuse)) <;>
      simp only [whole, trimmed, Outcome.Agree] at agree
    · rw [agree]
    · exact congrArg Except.ok (Lanes.line_eq_of_aligned trims agree).symm

end Removed

/-! ## The worst line as a floor -/

section Worst

variable {line : Line} {selected : String → Nat}

theorem mem_superseded (accepted : ofHeaders headers graph = .ok c)
    (isLine : c.IsLineOf failed selected line) (old : h ∈ c.superseded line) :
    ∃ top, (c.history h.owner)[selected h.owner]? = some top ∧ h.isOlder top = true := by
  rw [superseded, List.mem_flatMap] at old
  obtain ⟨⟨name, id⟩, member, old⟩ := old
  rw [Std.ExtTreeMap.mem_toList_iff_getElem?_eq_some] at member
  obtain ⟨_, top, stands, named⟩ := (isLine name id).mp member
  have place := (findIdx?_id_eq_some_iff (history_distinct accepted name)).mpr ⟨top, stands, named⟩
  simp only [place] at old
  obtain ⟨position, before, rfl⟩ := List.mem_take_iff_getElem.mp old
  have owned := ((mem_history accepted).mp (List.getElem_mem (by omega : position < (c.history name).length))).2
  obtain ⟨inside, rfl⟩ := List.getElem?_eq_some_iff.mp stands
  rw [owned]
  exact ⟨_, stands, List.pairwise_iff_getElem.mp (history_pairwise accepted name) _ _ _ _ (by omega)⟩

theorem isFloor_of_worst {later : List Header} {graph' : Graph} {c' : Chronicle}
    (accepted : ofHeaders headers graph = .ok c) (accepted' : ofHeaders later graph' = .ok c')
    (worst : c.recover c.names false = .ok line) (contained : ∀ h ∈ headers, h ∈ later)
    (closed : ∀ h ∈ headers, ∀ (peer : String) (id : CheckpointId), h.dependencies[peer]? = some id →
      id ∈ later.map (·.id) → id ∈ headers.map (·.id)) :
    ∃ floor, IsFloor later (c.superseded line) floor := by
  obtain ⟨_, selected, greatest, isLine⟩ := greatest_of_recover accepted worst
  have consistent := greatest.consistent
  refine ⟨fun name => (c.history name)[selected name]?, ?_, ?_, ?_⟩
  · intro name h stands
    obtain ⟨member, owned⟩ := (mem_history accepted).mp (List.mem_of_getElem? stands)
    exact ⟨contained h member, owned⟩
  · exact fun h old => mem_superseded accepted isLine old
  · intro name h stands peer id recorded other real k member owned named
    obtain ⟨stored, here⟩ := (mem_history accepted).mp (List.mem_of_getElem? stands)
    have kept : k ∈ headers := by
      obtain ⟨k', stored', same⟩ := List.mem_map.mp
        (closed h stored peer id recorded (List.mem_map.mpr ⟨k, member, named⟩))
      have equal := (distinct_of_accepted accepted').eq_of_id member (contained k' stored')
        (named.trans same.symm)
      exact equal ▸ stored'
    have part : c.TakesPart c.names name := Or.inl ((mem_names accepted).mpr (Or.inr ⟨h, stored, here⟩))
    have part' : c.TakesPart c.names peer :=
      Or.inl ((mem_names accepted).mpr (Or.inr ⟨k, kept, owned⟩))
    obtain ⟨position, inside, rfl⟩ :=
      List.mem_iff_getElem.mp ((mem_history accepted).mpr ⟨kept, owned⟩)
    have before := consistent.newer name part peer part' other id real (.stored stands recorded)
      position _ (List.getElem?_eq_getElem inside) named
    obtain within | ⟨_, reused, _⟩ := consistent.isPosition peer part'
    · exact ⟨_, List.getElem?_eq_getElem within,
        List.pairwise_iff_getElem.mp (history_pairwise accepted peer) _ _ inside within before⟩
    · contradiction

end Worst

end Chronicle

namespace Scenario

variable {s : Scenario} {line : Line} {old : List Header}

theorem prunable_eq_ok_iff : s.prunable = .ok (line, old) ↔
    ∃ c, Chronicle.ofHeaders s.checkpoints s.graph = .ok c ∧
      c.recover c.names false = .ok line ∧ old = c.superseded line := by
  unfold prunable chronicle
  cases accepted : Chronicle.ofHeaders s.checkpoints s.graph with
  | error e => simp [Except.mapError, bind, Except.bind]
  | ok c =>
    cases worst : c.recover c.names false with
    | error e => simp [Except.mapError, bind, Except.bind, worst]
    | ok line' =>
      simp only [Except.mapError, bind, Except.bind, worst, pure, Except.pure, Except.ok.injEq,
        Prod.mk.injEq, exists_eq_left']
      constructor
      · rintro ⟨rfl, rfl⟩
        exact ⟨rfl, rfl⟩
      · rintro ⟨rfl, rfl⟩
        exact ⟨rfl, rfl⟩

/-- What is prunable once is never missed: whatever checkpoints come later, of whatever instances in
whatever graph, every recovery ends in the same way without the prunable ones. The checkpoints that
are there must not depend on ones that come later. -/
theorem recover_without_prunable (pruned : s.prunable = .ok (line, old)) {later : List Header}
    {graph : Graph} {c : Chronicle} (accepted : Chronicle.ofHeaders later graph = .ok c)
    (contained : ∀ h ∈ s.checkpoints, h ∈ later)
    (closed : ∀ h ∈ s.checkpoints, ∀ (peer : String) (id : CheckpointId), h.dependencies[peer]? = some id →
      id ∈ later.map (·.id) → id ∈ s.checkpoints.map (·.id)) :
    ∃ rest, Chronicle.ofHeaders (later.filter (· ∉ old)) graph = .ok rest ∧
      ∀ failed reuse, rest.recover failed reuse = c.recover failed reuse := by
  obtain ⟨early, accepted', worst, rfl⟩ := prunable_eq_ok_iff.mp pruned
  obtain ⟨floor, isFloor⟩ := Chronicle.isFloor_of_worst accepted' accepted worst contained closed
  obtain ⟨rest, without⟩ := Chronicle.ofHeaders_filter accepted (early.superseded line)
  exact ⟨rest, without, Chronicle.recover_eq_of_floor accepted without isFloor⟩

/-- The first checkpoint of a source. -/
def supersededHeader : Header where
  id := .ofDigit 1
  owner := "source"
  createdAt := Instant.epoch.tick
  dependencies := (∅ : Dependencies).insert "source" .nil

/-- Two checkpoints of a source, and one of a sink that has not consumed anything. -/
def shortScenario : Scenario where
  graph := .empty
  checkpoints := [supersededHeader,
    ⟨.ofDigit 3, "sink", Instant.epoch.tick, (∅ : Dependencies).insert "sink" .nil⟩,
    ⟨.ofDigit 2, "source", Instant.epoch.tick.tick,
      (∅ : Dependencies).insert "source" supersededHeader.id⟩]
  failed := []

/-- A later checkpoint of the sink, which has consumed what the source sent after its first. -/
def lateHeader : Header where
  id := .ofDigit 4
  owner := "sink"
  createdAt := Instant.epoch.tick.tick.tick
  dependencies :=
    ((∅ : Dependencies).insert "source" supersededHeader.id).insert "sink" (.ofDigit 3)

theorem recover_without_first :
    shortScenario.prunable = .ok (Chronicle.lineOf (.ofDigit 2) (.ofDigit 3), [supersededHeader]) ∧
    ∃ rest, Chronicle.ofHeaders ((lateHeader :: shortScenario.checkpoints).filter
      (· ∉ [supersededHeader])) Chronicle.oneEdge = .ok rest ∧
    rest.recover ["source"] true = .ok (Chronicle.lineOf (.ofDigit 2) (.ofDigit 4)) := by
  have accepted : Chronicle.ofHeaders shortScenario.checkpoints .empty =
      .ok (.inOrder shortScenario.checkpoints shortScenario.checkpoints .empty) :=
    Chronicle.ofHeaders_eq_inOrder (by decide +kernel) (.refl _) (by decide +kernel)
  have pruned : shortScenario.prunable =
      .ok (Chronicle.lineOf (.ofDigit 2) (.ofDigit 3), [supersededHeader]) :=
    prunable_eq_ok_iff.mpr ⟨_, accepted, Chronicle.recover_of_lineWithin (n := 1) (by decide +kernel),
      by decide +kernel⟩
  have acceptedLater : Chronicle.ofHeaders (lateHeader :: shortScenario.checkpoints)
      Chronicle.oneEdge = .ok (.inOrder (lateHeader :: shortScenario.checkpoints)
        (shortScenario.checkpoints ++ [lateHeader]) Chronicle.oneEdge) :=
    Chronicle.ofHeaders_eq_inOrder (by decide +kernel) (List.perm_append_singleton _ _)
      (by decide +kernel)
  have early : ∀ h ∈ shortScenario.checkpoints, ∀ entry ∈ h.dependencies.toList,
      entry.2 ≠ lateHeader.id := by decide +kernel
  have closed : ∀ h ∈ shortScenario.checkpoints, ∀ (peer : String) (id : CheckpointId),
      h.dependencies[peer]? = some id →
      id ∈ (lateHeader :: shortScenario.checkpoints).map (·.id) →
      id ∈ shortScenario.checkpoints.map (·.id) := by
    intro h member peer id recorded known
    rw [List.map_cons, List.mem_cons] at known
    obtain rfl | known := known
    · exact absurd rfl (early h member ⟨peer, _⟩
        (Std.ExtTreeMap.mem_toList_iff_getElem?_eq_some.mpr recorded))
    · exact known
  obtain ⟨rest, without, same⟩ := recover_without_prunable pruned acceptedLater
    (fun h member => List.mem_cons_of_mem _ member) closed
  refine ⟨pruned, rest, without, ?_⟩
  rw [same]
  exact Chronicle.recover_of_lineWithin (n := 2) (by decide +kernel)

end Scenario

end Rollback
