import Rollback.Proofs.Recovery.Downstream
import Rollback.Proofs.Recovery.Outdating

/-!
# After going back

Once all instances have gone back to a line, what is newer than its selections is gone. Each history
then ends with the selected checkpoint, so no selection can be above that of the line; and it is
consistent as it was, since live state was only kept where the peers in front kept theirs. Hence the
line is found again, and nothing goes back any further (`recover_of_returned`).
-/

namespace Rollback

/-- A checkpoint that is newer than the one to which the line takes its owner back. -/
def Line.undoes (line : Line) (headers : List Header) (h : Header) : Bool :=
  headers.any fun kept =>
    kept.owner = h.owner && line.selections[h.owner]? = some kept.id && kept.isOlder h

theorem Line.undoes_eq_true_iff {line : Line} {headers : List Header} {h : Header} :
    line.undoes headers h = true ↔ ∃ kept ∈ headers, kept.owner = h.owner ∧
      line.selections[h.owner]? = some kept.id ∧ kept.isOlder h = true := by
  simp [undoes, and_assoc]

/-- What has a property up to some place only is what is in front of that place. -/
theorem List.filter_eq_take {α : Type} {keep : α → Bool} {l : List α} {cut : Nat}
    (below : ∀ (i : Nat) a, l[i]? = some a → (keep a = true ↔ i < cut)) :
    l.filter keep = l.take cut := by
  induction l generalizing cut with
  | nil => simp
  | cons a rest ih =>
    have first := below 0 a rfl
    cases cut with
    | zero =>
      rw [List.take_zero, List.filter_eq_nil_iff]
      intro b member kept
      obtain ⟨i, inside, rfl⟩ := List.mem_iff_getElem.mp member
      exact Nat.not_lt_zero i ((below i _ (List.getElem?_eq_getElem inside)).mp kept)
    | succ cut =>
      rw [List.take_succ_cons, List.filter_cons_of_pos (first.mpr (Nat.succ_pos cut))]
      congr 1
      apply ih
      intro i b stands
      rw [below (i + 1) b stands, Nat.add_lt_add_iff_right]

namespace Chronicle

variable {headers remaining : List Header} {graph : Graph} {c rest : Chronicle}
  {failed : List String} {reuse : Bool} {selected : String → Nat} {line : Line} {name : String}
  {h : Header}

/-! ## Histories that end with the selections -/

/-- The histories of the second chronicle are those of the first one up to a selection. -/
structure Ends (c rest : Chronicle) (selected : String → Nat) : Prop where
  known : ∀ name, name ∈ rest.names ↔ name ∈ c.names
  graph : rest.graph = c.graph
  history : ∀ name, rest.history name = (c.history name).take (selected name + 1)

namespace Ends

variable (ends : Ends c rest selected)

include ends

theorem length_eq (name : String) :
    (rest.history name).length = min (selected name + 1) (c.history name).length := by
  rw [ends.history, List.length_take]

theorem getElem?_selected (name : String) :
    (rest.history name)[selected name]? = (c.history name)[selected name]? := by
  rw [ends.history, List.getElem?_take_of_lt (Nat.lt_succ_self _)]

theorem stands_of_stands {position : Nat} (stands : (rest.history name)[position]? = some h) :
    (c.history name)[position]? = some h := by
  rw [ends.history, List.getElem?_take] at stands
  split at stands
  · exact stands
  · contradiction

/-- A history that was kept to its end is as it was. -/
theorem history_eq (live : selected name = (c.history name).length) :
    rest.history name = c.history name := by
  rw [ends.history, List.take_of_length_le (by omega)]

theorem takesPart_iff {roots : List String} (before : failed ⊆ c.names) (after : roots ⊆ c.names) :
    rest.TakesPart roots name ↔ c.TakesPart failed name := by
  rw [takesPart_of_known before,
    takesPart_of_known fun _ member => (ends.known _).mpr (after member), ends.known]

end Ends

section Accepted

variable (accepted : ofHeaders headers graph = .ok c)

include accepted

theorem undoes_iff_lt (isLine : c.IsLineOf failed selected line) (part : c.TakesPart failed name)
    {position : Nat} (stands : (c.history name)[position]? = some h) :
    line.undoes headers h = true ↔ selected name < position := by
  obtain ⟨member, rfl⟩ := (mem_history accepted).mp (List.mem_of_getElem? stands)
  rw [Line.undoes_eq_true_iff]
  constructor
  · rintro ⟨kept, known, _, chosen, older⟩
    obtain ⟨_, k, back, named⟩ := (isLine h.owner kept.id).mp chosen
    have known' := ((mem_history accepted).mp (List.mem_of_getElem? back)).1
    cases (distinct_of_accepted accepted).eq_of_id known' known named
    by_contra under
    rw [not_isOlder_of_le accepted (Nat.le_of_not_lt under) stands back] at older
    contradiction
  · intro above
    have inside := (List.getElem?_eq_some_iff.mp stands).1
    have back := List.getElem?_eq_getElem (Nat.lt_trans above inside)
    obtain ⟨known, owned⟩ := (mem_history accepted).mp (List.mem_of_getElem? back)
    exact ⟨_, known, owned, (isLine h.owner _).mpr ⟨part, _, back, rfl⟩,
      isOlder_of_lt accepted above back stands⟩

/-- Without what the line undoes each history ends with the selection of the line. -/
theorem ends_of_perm (isLine : c.IsLineOf failed selected line)
    (same : remaining.Perm (headers.filter fun h => !line.undoes headers h))
    (without : ofHeaders remaining graph = .ok rest) : Ends c rest selected := by
  have history : ∀ name, rest.history name = (c.history name).take (selected name + 1) := by
    intro name
    rw [history_of_perm accepted without same]
    by_cases part : name ∈ c.names
    · apply List.filter_eq_take
      intro i a stands
      rw [Bool.not_eq_true', ← Bool.not_eq_true, undoes_iff_lt accepted isLine (Or.inl part) stands,
        Nat.not_lt, Nat.lt_succ_iff]
    · rw [history_of_unknown part, List.filter_nil, List.take_nil]
  refine ⟨?_, ?_, history⟩
  · intro name
    apply mem_names_of_without accepted without
    rw [history, List.take_eq_nil_iff]
    simp
  · rw [graph_of_accepted accepted, graph_of_accepted without]

/-! ## The same selection -/

variable (real : ∀ h ∈ headers, h.id ≠ .nil) (ends : Ends c rest selected)
  (isLine : c.IsLineOf failed selected line) (consistent : c.Consistent failed reuse selected)

include real isLine

theorem affected_subset_names : line.affected ⊆ c.names := by
  intro name member
  obtain ⟨_, back⟩ := (mem_affected_iff_lt accepted real isLine).mp member
  by_contra unknown
  rw [history_of_unknown unknown] at back
  exact Nat.not_lt_zero _ back

include consistent

/-- Whoever kept its live state keeps it again. -/
theorem keepsLive_of_top (part : c.TakesPart failed name)
    (top : selected name = (c.history name).length) : KeepsLive line.affected reuse name := by
  obtain inside | ⟨_, reused, _⟩ := consistent.isPosition name part
  · omega
  · refine ⟨reused, fun back => ?_⟩
    have below := ((mem_affected_iff_lt accepted real isLine).mp back).2
    omega

include ends

theorem Ends.isPosition (part : c.TakesPart failed name) :
    rest.IsPosition line.affected reuse name (selected name) := by
  have length := ends.length_eq name
  obtain inside | ⟨top, _⟩ := consistent.isPosition name part
  · exact Or.inl (by omega)
  · exact Or.inr ⟨by omega, keepsLive_of_top accepted real isLine consistent part top⟩

omit isLine in
/-- What stands at the selection depends on nothing new: the peers in front of live state that was
kept have kept theirs, and with it their whole histories. -/
theorem Ends.dependsOn (stored : ∀ name, c.TakesPart failed name → c.history name ≠ [])
    (part : c.TakesPart failed name) {peer : String} (peerPart : c.TakesPart failed peer)
    {id : CheckpointId}
    (depends : rest.DependsOn line.affected reuse name (selected name) peer id) :
    c.DependsOn failed reuse name (selected name) peer id := by
  generalize here : selected name = position at depends
  cases depends with
  | stored stands recorded => exact .stored (ends.stands_of_stands stands) recorded
  | live _ along top =>
    have length := ends.length_eq name
    obtain inside | ⟨live, keeps⟩ := consistent.isPosition name part
    · omega
    · have along := ends.graph ▸ along
      obtain ⟨newest, last, latest⟩ := exists_newest (stored peer peerPart)
      have known := ((mem_history accepted).mp (List.mem_of_getElem? last)).1
      have kept := consistent.live_of_edge part peerPart along live keeps latest (real newest known)
      rw [Chronicle.latest, ends.history_eq kept] at top
      rw [← here, live]
      exact .live keeps along top

/-- The selection is consistent again, and nothing is above it. -/
theorem Ends.greatest (known : failed ⊆ c.names)
    (stored : ∀ name, c.TakesPart failed name → c.history name ≠ []) :
    rest.Greatest line.affected reuse selected := by
  have part : ∀ name, rest.TakesPart line.affected name ↔ c.TakesPart failed name := fun name =>
    ends.takesPart_iff known (affected_subset_names accepted real isLine)
  refine ⟨⟨?_, ?_⟩, ?_⟩
  · intro name taking
    exact ends.isPosition accepted real isLine consistent ((part name).mp taking)
  · intro name taking peer peerTaking other id named depends position h stands
    exact consistent.newer name ((part name).mp taking) peer ((part peer).mp peerTaking) other id
      named (ends.dependsOn accepted real consistent stored ((part name).mp taking)
        ((part peer).mp peerTaking) depends) position h (ends.stands_of_stands stands)
  · intro other another name taking
    have length := ends.length_eq name
    obtain inside | ⟨top, _, alive⟩ := another.isPosition name taking
    · omega
    · -- its live state is above the selection only if the instance went back
      have back := mt (mem_affected_iff_lt accepted real isLine).mpr alive
      have least : ¬ selected name < (c.history name).length :=
        fun less => back ⟨(part name).mp taking, less⟩
      omega

end Accepted

/-- Going back to a line is final: without all that is newer than what it selects, recovery from a
failure of the instances that it takes back finds the same line. -/
theorem recover_of_returned (accepted : ofHeaders headers graph = .ok c)
    (real : ∀ h ∈ headers, h.id ≠ .nil) (recovers : c.recover failed reuse = .ok line)
    (same : remaining.Perm (headers.filter fun h => !line.undoes headers h)) :
    ∃ rest, ofHeaders remaining graph = .ok rest ∧
      rest.recover line.affected reuse = .ok line := by
  obtain ⟨stored, selected, isGreatest, isLine⟩ := greatest_of_recover accepted recovers
  obtain ⟨rest, without⟩ := exists_accepted_of_perm accepted same
  have known := known_of_recover accepted recovers
  have ends := ends_of_perm accepted isLine same without
  have greatest := ends.greatest accepted real isLine isGreatest.consistent known stored
  have part : ∀ name, rest.TakesPart line.affected name ↔ c.TakesPart failed name := fun name =>
    ends.takesPart_iff known (affected_subset_names accepted real isLine)
  have stored' : ∀ name, rest.TakesPart line.affected name → rest.history name ≠ [] := by
    intro name taking
    rw [ends.history, ne_eq, List.take_eq_nil_iff]
    simpa using stored name ((part name).mp taking)
  obtain ⟨found, recovers'⟩ := recover_of_consistent without stored' greatest.consistent
  obtain ⟨_, selected', isGreatest', isFound⟩ := greatest_of_recover without recovers'
  have agree : ∀ name, rest.TakesPart line.affected name → selected' name = selected name := by
    intro name taking
    exact Nat.le_antisymm (greatest.above _ isGreatest'.consistent name taking)
      (isGreatest'.above _ greatest.consistent name taking)
  have again : rest.IsLineOf line.affected selected line := by
    intro name id
    rw [isLine name id, part name, ends.getElem?_selected]
  exact ⟨rest, without, recovers'.trans (congrArg Except.ok (isFound.unique again agree))⟩

/-- After the source has failed the sink goes back in front of its second checkpoint. Without that
one a failure of both takes them to the same checkpoints. -/
theorem recover_of_returned_sourceAndSink : ofHeaders sourceAndSink oneEdge =
      .ok (inOrder sourceAndSink sourceAndSink oneEdge) ∧
    (inOrder sourceAndSink sourceAndSink oneEdge).recover ["source"] true =
      .ok (lineOf (.ofDigit 1) (.ofDigit 2)) ∧
    (lineOf (.ofDigit 1) (.ofDigit 2)).affected = ["sink", "source"] ∧
    ∃ rest, ofHeaders (sourceAndSink.take 2) oneEdge = .ok rest ∧
      rest.recover ["sink", "source"] true = .ok (lineOf (.ofDigit 1) (.ofDigit 2)) := by
  have affected : (lineOf (.ofDigit 1) (.ofDigit 2)).affected = ["sink", "source"] := by
    decide +kernel
  have left : sourceAndSink.filter
      (fun h => !(lineOf (.ofDigit 1) (.ofDigit 2)).undoes sourceAndSink h) =
        sourceAndSink.take 2 := by decide +kernel
  have again := recover_of_returned ofHeaders_sourceAndSink (by decide) recover_sourceAndSink
    (.of_eq left.symm)
  rw [affected] at again
  exact ⟨ofHeaders_sourceAndSink, recover_sourceAndSink, affected, again⟩

end Chronicle

end Rollback
