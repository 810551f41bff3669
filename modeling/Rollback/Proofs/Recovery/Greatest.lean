import Rollback.Proofs.Recovery.Consistency
import Rollback.Proofs.Recovery.Settling
import Rollback.Proofs.Text.Bytewise
import Rollback.Proofs.Text.Hexadecimal

/-!
# The greatest consistent selection

Recovery finds the greatest consistent selection. It fails only for an instance without a
checkpoint, the first one in the order of their names, or because no selection is consistent.
-/

namespace Rollback

namespace Lanes

def standAt (lanes : Lanes) (selected : String → Nat) : Cursors :=
  lanes.map fun name _ => selected name

variable {lanes : Lanes} {selected : String → Nat} {name : String}

theorem standAt_covers : (standAt lanes selected).Covers lanes := fun _ => Std.ExtTreeMap.mem_map

theorem position_standAt (known : name ∈ lanes) :
    (standAt lanes selected).position name = selected name := by
  simp [Cursors.position, standAt, getElem?_pos _ _ known]

end Lanes

/-- The first name with a property in a set of names. -/
theorem NameSet.find?_toList_eq_some_iff {names : NameSet} {p : String → Bool} {name : String} :
    names.toList.find? p = some name ↔
      name ∈ names.toList ∧ p name = true ∧ ∀ other ∈ names.toList, p other = true → name ≤ other := by
  have ordered : names.toList.Pairwise (· < ·) := by
    refine (Std.ExtTreeSet.ordered_toList (t := names)).imp ?_
    intro a b less
    exact compareOfLessAndEq_eq_lt.mp less
  generalize names.toList = listed at ordered
  induction listed with
  | nil => simp
  | cons first rest ih =>
    obtain ⟨before, ordered⟩ := List.pairwise_cons.mp ordered
    rw [List.find?_cons]
    cases found : p first with
    | true =>
      simp only [Option.some.injEq, List.mem_cons, forall_eq_or_imp]
      constructor
      · rintro rfl
        exact ⟨Or.inl rfl, found, fun _ => le_refl _, fun other member _ => le_of_lt (before other member)⟩
      · rintro ⟨rfl | member, _, least, _⟩
        · rfl
        · exact le_antisymm (le_of_lt (before name member)) (least found)
    | false =>
      simp only [ih ordered, List.mem_cons, forall_eq_or_imp, found, Bool.false_eq_true,
        false_implies, true_and]
      constructor
      · rintro ⟨member, holds, least⟩
        exact ⟨Or.inr member, holds, least⟩
      · rintro ⟨rfl | member, holds, least⟩
        · rw [found] at holds
          contradiction
        · exact ⟨member, holds, least⟩

namespace Chronicle

variable {headers : List Header} {graph : Graph} {c : Chronicle} {failed : List String}
  {reuse : Bool} {cursors : Cursors} {selected : String → Nat} {line : Line}

/-! ## Stable cursors are consistent selections -/

section Accepted

variable (accepted : ofHeaders headers graph = .ok c)

include accepted

theorem position?_eq_some_iff {name : String} {id : CheckpointId} {position : Nat} :
    (c.lane (NameSet.ofNames failed) reuse name).position? id = some position ↔
      ∃ h, (c.history name)[position]? = some h ∧ h.id = id :=
  findIdx?_id_eq_some_iff (history_distinct accepted name)

theorem stable_iff : (c.lanes (NameSet.ofNames failed) reuse).Stable cursors ↔
    ∀ name, c.TakesPart failed name → ∀ peer, c.TakesPart failed peer → peer ≠ name →
      ∀ id, id ≠ .nil → c.DependsOn failed reuse name (cursors.position name) peer id →
        ∀ position h, (c.history peer)[position]? = some h → h.id = id →
          position < cursors.position peer := by
  simp only [Lanes.Stable, Lanes.settled_iff, Lanes.meets_iff, mem_lanes,
    getElem?_lanes_eq_some_iff]
  constructor
  · intro stable name part peer peerPart other id real depends position h stands named
    obtain ⟨candidate, selected, recorded⟩ := (dependsOn_iff other).mp depends
    exact stable name part _ candidate ⟨part, rfl⟩ selected peer id recorded other real _ position
      ⟨peerPart, rfl⟩ ((position?_eq_some_iff accepted).mpr ⟨h, stands, named⟩)
  · rintro newer name part _ candidate ⟨_, rfl⟩ selected peer id recorded other real _ position
      ⟨peerPart, rfl⟩ place
    obtain ⟨h, stands, named⟩ := (position?_eq_some_iff accepted).mp place
    exact newer name part peer peerPart other id real
      ((dependsOn_iff other).mpr ⟨candidate, selected, recorded⟩) position h stands named

theorem stable_of_consistent (consistent : c.Consistent failed reuse selected) :
    (c.lanes (NameSet.ofNames failed) reuse).Stable
      (Lanes.standAt (c.lanes (NameSet.ofNames failed) reuse) selected) := by
  rw [stable_iff accepted]
  intro name part peer peerPart
  rw [Lanes.position_standAt (mem_lanes.mpr part), Lanes.position_standAt (mem_lanes.mpr peerPart)]
  exact consistent.newer name part peer peerPart

omit accepted in
theorem standAt_below_start (isPosition : ∀ name, c.TakesPart failed name →
    c.IsPosition failed reuse name (selected name)) :
    Cursors.Below (Lanes.standAt (c.lanes (NameSet.ofNames failed) reuse) selected)
      (Lanes.start (c.lanes (NameSet.ofNames failed) reuse)) := by
  intro name
  by_cases part : c.TakesPart failed name
  · rw [Lanes.position_standAt (mem_lanes.mpr part),
      Lanes.position_start (getElem?_lanes_eq_some_iff.mpr ⟨part, rfl⟩), Lane.top]
    have inside := isPosition_iff.mp (isPosition name part)
    omega
  · rw [Lanes.position_of_not_mem Lanes.standAt_covers (mt mem_lanes.mp part)]
    exact Nat.zero_le _

/-- Where a consistent selection exists, the search ends above it. -/
theorem settle_above (consistent : c.Consistent failed reuse selected) :
    ∃ final, Lanes.settle (c.lanes (NameSet.ofNames failed) reuse)
        (Lanes.start (c.lanes (NameSet.ofNames failed) reuse)) = .ok final ∧
      ∀ name, c.TakesPart failed name → selected name ≤ final.position name := by
  obtain ⟨final, settles, above⟩ := Lanes.settle_keeps (stable_of_consistent accepted consistent)
    (standAt_below_start consistent.isPosition)
  refine ⟨final, settles, fun name part => ?_⟩
  have bound := above name
  rw [Lanes.position_standAt (mem_lanes.mpr part)] at bound
  exact bound

theorem greatest_of_settle (stored : ∀ name, c.TakesPart failed name → c.history name ≠ [])
    (settles : Lanes.settle (c.lanes (NameSet.ofNames failed) reuse)
      (Lanes.start (c.lanes (NameSet.ofNames failed) reuse)) = .ok cursors) :
    c.Greatest failed reuse cursors.position := by
  obtain ⟨_, below, stable⟩ := Lanes.settle_stable (Lanes.start_covers _) settles
  refine ⟨⟨?_, (stable_iff accepted).mp stable⟩, ?_⟩
  · intro name part
    have bound := below name
    rw [Lanes.position_start (getElem?_lanes_eq_some_iff.mpr ⟨part, rfl⟩), Lane.top] at bound
    have some : 0 < (c.history name).length := List.length_pos_iff.mpr (stored name part)
    have most : (c.history name).length ≤
        (c.lane (NameSet.ofNames failed) reuse name).candidates.length := by
      simp [Lane.candidates, lane]
    rw [isPosition_iff]
    omega
  · intro other consistent name part
    obtain ⟨final, same, above⟩ := settle_above accepted consistent
    cases Except.ok.inj (same.symm.trans settles)
    exact above name part

end Accepted

/-! ## The answer -/

theorem isLineOf_line : c.IsLineOf failed cursors.position
    (Lanes.line (c.lanes (NameSet.ofNames failed) reuse) cursors) := by
  intro name id
  rw [Lanes.line_eq, Std.ExtTreeMap.getElem?_filterMap']
  by_cases part : c.TakesPart failed name
  · rw [getElem?_lanes_eq_some_iff.mpr ⟨part, rfl⟩]
    simp only [Option.bind_some, Option.bind_eq_some_iff, getElem?_candidates, part, true_and]
    constructor
    · rintro ⟨candidate, ⟨h, stands, rfl⟩ | ⟨_, _, rfl⟩, named⟩
      · exact ⟨h, stands, Option.some.inj named⟩
      · contradiction
    · rintro ⟨h, stands, rfl⟩
      exact ⟨.stored h, Or.inl ⟨h, stands, rfl⟩, rfl⟩
  · rw [getElem?_neg _ _ fun known => part (mem_lanes.mp known)]
    simp [part]

theorem recover_of_missing {name : String} (missing : (c.required (NameSet.ofNames failed)).toList.find?
    (fun name => (c.history name).isEmpty) = some name) :
    c.recover failed reuse = .error (.missingCheckpoint name) := by
  simp only [recover, missing]

theorem find?_missing_eq_none_iff : (c.required (NameSet.ofNames failed)).toList.find?
    (fun name => (c.history name).isEmpty) = none ↔
      ∀ name, c.TakesPart failed name → c.history name ≠ [] := by
  simp only [List.find?_eq_none, mem_required, List.isEmpty_iff, ne_eq]

theorem recover_of_stored (stored : ∀ name, c.TakesPart failed name → c.history name ≠ []) :
    c.recover failed reuse =
      (Lanes.settle (c.lanes (NameSet.ofNames failed) reuse)
        (Lanes.start (c.lanes (NameSet.ofNames failed) reuse))).map
        (Lanes.line (c.lanes (NameSet.ofNames failed) reuse)) := by
  simp only [recover, find?_missing_eq_none_iff.mpr stored]
  rfl

/-- If no checkpoint is missing, a recovery finds a line or reports that none is consistent. -/
theorem recover_cases (stored : ∀ name, c.TakesPart failed name → c.history name ≠ [])
    (reuse : Bool) : (∃ line, c.recover failed reuse = .ok line) ∨
    ∃ name, c.recover failed reuse = .error (.noConsistentLine name) := by
  rw [recover_of_stored stored]
  cases settles : Lanes.settle (c.lanes (NameSet.ofNames failed) reuse)
      (Lanes.start (c.lanes (NameSet.ofNames failed) reuse)) with
  | ok final => exact Or.inl ⟨_, rfl⟩
  | error cause =>
    obtain ⟨name, _, rfl⟩ := Lanes.settle_error settles
    exact Or.inr ⟨name, rfl⟩

/-- A recovery reports no missing checkpoint if each instance that takes part has one. -/
theorem stored_iff (reuse : Bool) :
    (∀ name, c.TakesPart failed name → c.history name ≠ []) ↔
      ∀ name, c.recover failed reuse ≠ .error (.missingCheckpoint name) := by
  constructor
  · intro stored name failure
    obtain ⟨_, recovers⟩ | ⟨_, recovers⟩ := recover_cases stored reuse
    all_goals simp [recovers] at failure
  · intro none
    cases missing : (c.required (NameSet.ofNames failed)).toList.find?
        (fun name => (c.history name).isEmpty) with
    | some name => exact absurd (recover_of_missing missing) (none name)
    | none => exact find?_missing_eq_none_iff.mp missing

/-- The line on which a number of rounds settles, as a list that can be computed. -/
def lineWithin (c : Chronicle) (failed : List String) (reuse : Bool) (n : Nat) :
    Option (List (String × CheckpointId)) :=
  let lanes := c.lanes (NameSet.ofNames failed) reuse
  if (c.required (NameSet.ofNames failed)).toList.all fun name => !(c.history name).isEmpty then
    match Lanes.rounds lanes n lanes.start with
    | .error _ => none
    | .ok final =>
      match Lanes.round lanes final with
      | .error _ => none
      | .ok next =>
        if next.toList = final.toList then some (Lanes.line lanes final).selections.toList else none
  else none

theorem recover_of_lineWithin {n : Nat}
    (found : c.lineWithin failed reuse n = some line.selections.toList) :
    c.recover failed reuse = .ok line := by
  simp only [lineWithin] at found
  split at found
  · rename_i stored
    have stored : ∀ name, c.TakesPart failed name → c.history name ≠ [] := by
      intro name part
      simpa using List.all_eq_true.mp stored name (mem_required.mpr part)
    split at found
    · contradiction
    · rename_i final reached
      split at found
      · contradiction
      · rename_i next rounded
        split at found
        · rename_i still
          obtain rfl := Std.ExtTreeMap.ext_toList (.of_eq still)
          have settles := Lanes.settle_of_rounds (Lanes.start_covers _) reached rounded
          have same := Std.ExtTreeMap.ext_toList (.of_eq (Option.some.inj found))
          rw [recover_of_stored stored, settles]
          exact congrArg Except.ok (congrArg Line.mk same)
        · contradiction
  · contradiction

/-- The first instance without a checkpoint is reported, and nothing else is reported this way. -/
theorem recover_eq_missing_iff {name : String} :
    c.recover failed reuse = .error (.missingCheckpoint name) ↔
      c.TakesPart failed name ∧ c.history name = [] ∧
        ∀ other, c.TakesPart failed other → c.history other = [] → name ≤ other := by
  have first : (c.required (NameSet.ofNames failed)).toList.find?
      (fun name => (c.history name).isEmpty) = some name ↔
      c.TakesPart failed name ∧ c.history name = [] ∧
        ∀ other, c.TakesPart failed other → c.history other = [] → name ≤ other := by
    simp only [NameSet.find?_toList_eq_some_iff, mem_required, List.isEmpty_iff]
  rw [← first]
  constructor
  · intro failure
    cases missing : (c.required (NameSet.ofNames failed)).toList.find?
        (fun name => (c.history name).isEmpty) with
    | some other =>
      rw [recover_of_missing missing] at failure
      simpa using failure
    | none => exact absurd failure ((stored_iff reuse).mp (find?_missing_eq_none_iff.mp missing) _)
  · exact recover_of_missing

/-- Each line is that of the greatest consistent selection. -/
theorem greatest_of_recover (accepted : ofHeaders headers graph = .ok c)
    (recovers : c.recover failed reuse = .ok line) :
    (∀ name, c.TakesPart failed name → c.history name ≠ []) ∧
      ∃ selected, c.Greatest failed reuse selected ∧ c.IsLineOf failed selected line := by
  have stored : ∀ name, c.TakesPart failed name → c.history name ≠ [] :=
    (stored_iff reuse).mpr (by simp [recovers])
  refine ⟨stored, ?_⟩
  rw [recover_of_stored stored] at recovers
  cases settles : Lanes.settle (c.lanes (NameSet.ofNames failed) reuse)
      (Lanes.start (c.lanes (NameSet.ofNames failed) reuse)) with
  | error e => simp [settles, Except.map] at recovers
  | ok final =>
    simp only [settles, Except.map, Except.ok.injEq] at recovers
    subst line
    exact ⟨final.position, greatest_of_settle accepted stored settles, isLineOf_line⟩

/-- A line goes back to nothing older than what any consistent selection selects. -/
theorem greatest_of_checkpointFor (accepted : ofHeaders headers graph = .ok c)
    (recovers : c.recover failed reuse = .ok line) {name : String} {a : Header}
    (member : a ∈ headers) (chosen : line.checkpointFor name = some a.id) :
    ∃ position, (c.history name)[position]? = some a ∧
      ∀ other, c.Consistent failed reuse other → other name ≤ position := by
  obtain ⟨_, greatest, isGreatest, isLine⟩ := greatest_of_recover accepted recovers
  have selects : line.selections[name]? = some a.id := (Option.filter_eq_some_iff.mp chosen).1
  obtain ⟨part, h, stands, same⟩ := (isLine name a.id).mp selects
  have known := (mem_history accepted).mp (List.mem_of_getElem? stands)
  cases (distinct_of_accepted accepted).eq_of_id known.1 member same
  exact ⟨greatest name, stands, fun other consistent => isGreatest.above other consistent name part⟩

theorem recover_of_consistent (accepted : ofHeaders headers graph = .ok c)
    (stored : ∀ name, c.TakesPart failed name → c.history name ≠ [])
    (consistent : c.Consistent failed reuse selected) :
    ∃ line, c.recover failed reuse = .ok line := by
  obtain ⟨final, settles, _⟩ := settle_above accepted consistent
  rw [recover_of_stored stored, settles]
  exact ⟨_, rfl⟩

theorem takesPart_iff (accepted : ofHeaders headers graph = .ok c) {name : String} :
    c.TakesPart failed name ↔
      name ∈ graph.names ∨ (∃ h ∈ headers, h.owner = name) ∨ name ∈ failed := by
  rw [TakesPart, mem_names accepted, or_assoc]

/-- An instance of the graph, an owner of a checkpoint or a failed instance of which there is no
checkpoint. -/
def Missing (headers : List Header) (graph : Graph) (failed : List String) (name : String) : Prop :=
  (name ∈ graph.names ∨ (∃ h ∈ headers, h.owner = name) ∨ name ∈ failed) ∧
    ∀ h ∈ headers, h.owner ≠ name

theorem missing_iff (accepted : ofHeaders headers graph = .ok c) {name : String} :
    Missing headers graph failed name ↔ c.TakesPart failed name ∧ c.history name = [] := by
  rw [Missing, ← takesPart_iff accepted, history_eq_nil_iff accepted]

/-- What recovery answers: the first instance without a checkpoint, in the order of their bytes; if
there is none, that no selection is consistent; and otherwise the checkpoints of the greatest
consistent selection. -/
theorem recover_answers (accepted : ofHeaders headers graph = .ok c) (failed : List String)
    (reuse : Bool) :
    (∀ name, c.recover failed reuse = .error (.missingCheckpoint name) ↔
      Missing headers graph failed name ∧
        ∀ other, Missing headers graph failed other → Text.bytes name ≤ Text.bytes other) ∧
    ((∀ name, ¬ Missing headers graph failed name) →
      ((∃ name, c.recover failed reuse = .error (.noConsistentLine name)) ↔
        ¬ ∃ selected, c.Consistent failed reuse selected) ∧
      ((∃ selected, c.Consistent failed reuse selected) →
        ∃ greatest line, c.Greatest failed reuse greatest ∧
          c.recover failed reuse = .ok line ∧ c.IsLineOf failed greatest line)) := by
  constructor
  · intro name
    rw [recover_eq_missing_iff, missing_iff accepted]
    simp only [missing_iff accepted, Text.bytes_le_iff, and_imp, and_assoc]
  · intro complete
    have stored : ∀ name, c.TakesPart failed name → c.history name ≠ [] :=
      fun name part empty => complete name ((missing_iff accepted).mpr ⟨part, empty⟩)
    have found : (∃ selected, c.Consistent failed reuse selected) →
        ∃ greatest line, c.Greatest failed reuse greatest ∧
          c.recover failed reuse = .ok line ∧ c.IsLineOf failed greatest line := by
      rintro ⟨selected, consistent⟩
      obtain ⟨line, recovers⟩ := recover_of_consistent accepted stored consistent
      obtain ⟨_, greatest, isGreatest, isLine⟩ := greatest_of_recover accepted recovers
      exact ⟨greatest, line, isGreatest, recovers, isLine⟩
    refine ⟨?_, found⟩
    constructor
    · rintro ⟨name, failure⟩ exists_consistent
      obtain ⟨_, _, _, recovers, _⟩ := found exists_consistent
      rw [recovers] at failure
      contradiction
    · intro none
      obtain ⟨line, recovers⟩ | failure := recover_cases stored reuse
      · obtain ⟨_, selected, isGreatest, _⟩ := greatest_of_recover accepted recovers
        exact absurd ⟨selected, isGreatest.consistent⟩ none
      · exact failure

def oneEdge : Graph := Graph.empty.addEdge "source" "sink"

/-- A checkpoint of a source and two of a sink. Before its second one the sink has consumed what the
source sent after its own. -/
def sourceAndSink : List Header := [
  ⟨.ofDigit 1, "source", Instant.epoch.tick, (∅ : Dependencies).insert "source" .nil⟩,
  ⟨.ofDigit 2, "sink", Instant.epoch.tick, (∅ : Dependencies).insert "sink" .nil⟩,
  ⟨.ofDigit 3, "sink", Instant.epoch.tick.tick,
    ((∅ : Dependencies).insert "source" (.ofDigit 1)).insert "sink" (.ofDigit 2)⟩]

/-- The line that goes back to the given checkpoints of the source and the sink. -/
def lineOf (source sink : CheckpointId) : Line :=
  ⟨((∅ : Dependencies).insert "source" source).insert "sink" sink⟩

theorem ofHeaders_sourceAndSink : ofHeaders sourceAndSink oneEdge =
    .ok (inOrder sourceAndSink sourceAndSink oneEdge) :=
  ofHeaders_eq_inOrder (by decide +kernel) (.refl _) (by decide +kernel)

theorem recover_sourceAndSink :
    (inOrder sourceAndSink sourceAndSink oneEdge).recover ["source"] true =
      .ok (lineOf (.ofDigit 1) (.ofDigit 2)) :=
  recover_of_lineWithin (n := 2) (by decide +kernel)

/-- The sink goes back further than it would have to without the source. -/
theorem recover_answers_sourceAndSink : ∃ c greatest, ofHeaders sourceAndSink oneEdge = .ok c ∧
    c.recover ["source"] true = .ok (lineOf (.ofDigit 1) (.ofDigit 2)) ∧
    c.Greatest ["source"] true greatest ∧
    c.IsLineOf ["source"] greatest (lineOf (.ofDigit 1) (.ofDigit 2)) := by
  have answers := recover_answers ofHeaders_sourceAndSink ["source"] true
  have complete : ∀ name, ¬ Missing sourceAndSink oneEdge ["source"] name := by
    rintro name ⟨part, none⟩
    have named : oneEdge.names.toList = ["sink", "source"] := by decide +kernel
    obtain known | ⟨h, member, rfl⟩ | known := part
    · rw [← Std.ExtTreeSet.mem_toList, named] at known
      obtain rfl | rfl : name = "sink" ∨ name = "source" := by simpa using known
      all_goals simp [sourceAndSink] at none
    · exact none h member rfl
    · obtain rfl := List.mem_singleton.mp known
      simp [sourceAndSink] at none
  obtain ⟨fails, found⟩ := answers.2 complete
  have consistent : ∃ selected, (inOrder sourceAndSink sourceAndSink oneEdge).Consistent
      ["source"] true selected := by
    by_contra none
    obtain ⟨name, failure⟩ := fails.mpr none
    rw [recover_sourceAndSink] at failure
    contradiction
  obtain ⟨greatest, line, isGreatest, recovers, isLine⟩ := found consistent
  cases Except.ok.inj (recovers.symm.trans recover_sourceAndSink)
  exact ⟨_, greatest, ofHeaders_sourceAndSink, recover_sourceAndSink, isGreatest, isLine⟩

end Chronicle

end Rollback
