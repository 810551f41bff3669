import Rollback.Proofs.Names
import Rollback.Proofs.Recovery.Greatest
import Rollback.Scenario.Analysis

/-!
# Valid scenarios

A scenario is valid exactly if nothing stands in the way of a recovery but that no line may be
consistent. Its summaries then count each checkpoint once, under the instance that owns it
(`validate_answers`).
-/

namespace Rollback.Scenario

variable {s : Scenario} {c : Chronicle} {summaries : List Summary} {reuse : Bool}

theorem latest_isNone_iff {name : String} :
    (c.latest name).isNone = true ↔ c.history name = [] := by
  rw [Chronicle.latest, Option.isNone_iff_eq_none, List.getLast?_eq_none_iff]

section Accepted

variable (accepted : Chronicle.ofHeaders s.checkpoints s.graph = .ok c)

include accepted

theorem validate_eq_ok_iff : s.validate = .ok summaries ↔
    (∀ name, c.TakesPart s.failed name → c.history name ≠ []) ∧
      summaries = c.names.filterMap (s.summary? c) := by
  have known : s.chronicle = .ok c := by rw [chronicle, accepted]; rfl
  simp only [validate, known, bind, Except.bind]
  cases unstored : c.names.filter fun name => (c.latest name).isNone with
  | cons name more =>
    have member : name ∈ c.names.filter fun name => (c.latest name).isNone := by
      rw [unstored]
      exact List.mem_cons_self
    obtain ⟨named, none⟩ := List.mem_filter.mp member
    simp only [reduceCtorEq, false_iff, not_and]
    exact fun stored => absurd (latest_isNone_iff.mp none) (stored name (Or.inl named))
  | nil =>
    cases lost : s.failed.find? fun name => (c.latest name).isNone with
    | some name =>
      have none := List.find?_some lost
      simp only [reduceCtorEq, false_iff, not_and]
      exact fun stored => absurd (latest_isNone_iff.mp none)
        (stored name (Or.inr (List.mem_of_find?_eq_some lost)))
    | none =>
      have stored : ∀ name, c.TakesPart s.failed name → c.history name ≠ [] := by
        rintro name (named | failed) empty
        · exact List.filter_eq_nil_iff.mp unstored name named (latest_isNone_iff.mpr empty)
        · exact List.find?_eq_none.mp lost name failed (latest_isNone_iff.mpr empty)
      simp only [pure, Except.pure, Except.ok.injEq]
      exact ⟨fun same => ⟨stored, same.symm⟩, fun both => both.2.symm⟩

theorem compute_own (reuse : Bool) :
    s.compute [] reuse = (c.recover s.failed reuse).mapError .noLine := by
  rw [compute, chronicle, accepted]
  rfl

theorem compute_eq_ok_iff {line : Line} :
    s.compute [] reuse = .ok line ↔ c.recover s.failed reuse = .ok line := by
  rw [compute_own accepted]
  cases c.recover s.failed reuse <;> simp [Except.mapError]

theorem compute_eq_error_iff {f : Failure} :
    s.compute [] reuse = .error f ↔
      ∃ cause, c.recover s.failed reuse = .error cause ∧ f = .noLine cause := by
  rw [compute_own accepted]
  cases c.recover s.failed reuse <;> simp [Except.mapError, eq_comm]

omit accepted in
/-- Instances with a checkpoint are summed up one by one. -/
theorem filterMap_summary {names : List String} (stored : ∀ name ∈ names, c.history name ≠ []) :
    (names.filterMap (s.summary? c)).map (·.name) = names ∧
      (names.filterMap (s.summary? c)).map (·.checkpoints) =
        names.map fun name => (c.history name).length := by
  induction names with
  | nil => exact ⟨rfl, rfl⟩
  | cons name rest ih =>
    obtain ⟨here, others⟩ := List.forall_mem_cons.mp stored
    obtain ⟨newest, -, top⟩ := Chronicle.exists_newest here
    obtain ⟨named, counted⟩ := ih others
    have summed : s.summary? c name =
        some ⟨name, (c.history name).length, newest.id, (s.graph.sources name).toList⟩ := by
      rw [summary?, top, Option.map_some]
    simp only [List.filterMap_cons_some summed, List.map_cons, named, counted, and_self]

theorem exists_validate_iff : (∃ summaries, s.validate = .ok summaries) ↔
    ∀ name, c.TakesPart s.failed name → c.history name ≠ [] := by
  simp only [validate_eq_ok_iff accepted]
  exact ⟨fun ⟨_, stored, _⟩ => stored, fun stored => ⟨_, stored, rfl⟩⟩

theorem length_history (name : String) :
    (c.history name).length = s.checkpoints.countP (·.owner = name) := by
  rw [Chronicle.history_of_accepted accepted, ← List.countP_eq_length_filter,
    (Chronicle.sorted_perm s.checkpoints).countP_eq]

/-- The summaries are those of all instances, and their counts lose no checkpoint. -/
theorem summaries_of_validate (valid : s.validate = .ok summaries) :
    Enumerates (summaries.map (·.name))
        (fun name => name ∈ s.graph.names ∨ ∃ h ∈ s.checkpoints, h.owner = name) ∧
      (∀ y ∈ summaries, y.checkpoints = s.checkpoints.countP (·.owner = y.name)) ∧
      (summaries.map (·.checkpoints)).sum = s.checkpoints.length := by
  obtain ⟨stored, rfl⟩ := (validate_eq_ok_iff accepted).mp valid
  obtain ⟨named, counted⟩ :=
    filterMap_summary (s := s) (c := c) fun name member => stored name (Or.inl member)
  refine ⟨?_, ?_, ?_⟩
  · rw [named]
    refine (NameMap.enumerates c.histories).congr fun name => ?_
    rw [← Chronicle.mem_names accepted, Chronicle.names, Std.ExtTreeMap.mem_keys]
  · intro y member
    obtain ⟨name, _, summed⟩ := List.mem_filterMap.mp member
    obtain ⟨_, _, rfl⟩ := Option.map_eq_some_iff.mp summed
    exact length_history accepted name
  · rw [counted, ← (Chronicle.histories_perm accepted).length_eq, List.length_flatMap]

end Accepted

/-- A scenario is valid exactly if its own recovery ends with a line or for lack of a consistent one,
that is unless its checkpoints are refused or an instance has none. Then its summaries are those of
the instances of the graph, the ends of edges included, and of the owners of checkpoints, each once
and in order. Each counts the checkpoints of its instance, and together they count all. -/
theorem validate_answers (s : Scenario) (reuse : Bool) :
    ((∃ summaries, s.validate = .ok summaries) ↔
      (∃ line, s.compute [] reuse = .ok line) ∨
        ∃ name, s.compute [] reuse = .error (.noLine (.noConsistentLine name))) ∧
    ((∃ summaries, s.validate = .ok summaries) ↔
      (∀ cause, s.compute [] reuse ≠ .error (.invalid cause)) ∧
        ∀ name, s.compute [] reuse ≠ .error (.noLine (.missingCheckpoint name))) ∧
    ∀ summaries, s.validate = .ok summaries →
      Enumerates (summaries.map (·.name)) (fun name =>
        (name ∈ s.graph.instances ∨ ∃ e ∈ s.graph.edges, e.source = name ∨ e.target = name) ∨
          ∃ h ∈ s.checkpoints, h.owner = name) ∧
      (∀ y ∈ summaries, y.checkpoints = s.checkpoints.countP (·.owner = y.name)) ∧
      (summaries.map (·.checkpoints)).sum = s.checkpoints.length := by
  cases accepted : Chronicle.ofHeaders s.checkpoints s.graph with
  | error cause =>
    have refused : s.chronicle = .error (.invalid cause) := by rw [chronicle, accepted]; rfl
    have invalid : s.validate = .error (.invalid cause) := by rw [validate, refused]; rfl
    have unanswered : s.compute [] reuse = .error (.invalid cause) := by
      rw [compute, refused]
      rfl
    simp [invalid, unanswered]
  | ok c =>
    simp only [← Graph.mem_names, exists_validate_iff accepted, compute_eq_ok_iff accepted,
      compute_eq_error_iff accepted, Failure.noLine.injEq, exists_eq_right', ne_eq]
    refine ⟨⟨fun stored => Chronicle.recover_cases stored reuse, ?_⟩, ?_, fun summaries valid =>
      summaries_of_validate accepted valid⟩
    · intro answered
      rw [Chronicle.stored_iff reuse]
      obtain ⟨line, recovers⟩ | ⟨name, fails⟩ := answered
      · simp [recovers]
      · simp [fails]
    · simpa using Chronicle.stored_iff reuse

/-- The graph names its instances at the ends of an edge only. The sink has consumed what the source
sent after its only checkpoint, and a third instance stands outside of the graph. -/
def outsiderScenario : Scenario where
  graph := ⟨∅, (∅ : Std.ExtTreeSet Edge).insert ⟨"source", "sink"⟩⟩
  checkpoints := [
    ⟨.ofDigit 3, "sink", Instant.epoch.tick.tick,
      ((∅ : Dependencies).insert "source" (.ofDigit 1)).insert "sink" .nil⟩,
    ⟨.ofDigit 2, "outsider", Instant.epoch.tick.tick, (∅ : Dependencies).insert "outsider" .nil⟩,
    ⟨.ofDigit 1, "source", Instant.epoch.tick, (∅ : Dependencies).insert "source" .nil⟩]
  failed := ["source", "source"]

/-- No line is consistent after the failure of the source, but the scenario is valid. -/
theorem validate_answers_outsider :
    outsiderScenario.compute [] true = .error (.noLine (.noConsistentLine "sink")) ∧
    ∃ summaries, outsiderScenario.validate = .ok summaries ∧
      summaries.map (·.name) = ["outsider", "sink", "source"] ∧
      (summaries.map (·.checkpoints)).sum = 3 := by
  have accepted : Chronicle.ofHeaders outsiderScenario.checkpoints outsiderScenario.graph =
      .ok (.inOrder outsiderScenario.checkpoints outsiderScenario.checkpoints.reverse
        outsiderScenario.graph) :=
    Chronicle.ofHeaders_eq_inOrder (by decide +kernel) (List.reverse_perm _) (by decide +kernel)
  have unanswered : outsiderScenario.compute [] true =
      .error (.noLine (.noConsistentLine "sink")) := by
    rw [compute_own accepted, Chronicle.recover_of_stored
      (Chronicle.find?_missing_eq_none_iff.mp (by decide +kernel)),
      Lanes.settle_eq (Lanes.start_covers _)]
    decide +kernel
  obtain ⟨valid, -, sums⟩ := validate_answers outsiderScenario true
  obtain ⟨summaries, validates⟩ := valid.mpr (Or.inr ⟨"sink", unanswered⟩)
  obtain ⟨named, -, counted⟩ := sums summaries validates
  refine ⟨unanswered, summaries, validates, ?_, counted⟩
  refine (named.eq_iff (q := (· ∈ ["outsider", "sink", "source"]))
    ⟨by decide +kernel, fun _ => Iff.rfl⟩).mpr fun name => ?_
  have edge : ∀ e : Edge, e ∈ outsiderScenario.graph.edges ↔ e = ⟨"source", "sink"⟩ := by
    intro e
    rw [← Std.ExtTreeSet.mem_toList,
      show outsiderScenario.graph.edges.toList = [⟨"source", "sink"⟩] by decide +kernel,
      List.mem_singleton]
  have none : name ∉ outsiderScenario.graph.instances := by
    simp [outsiderScenario]
  have owner : (∃ h ∈ outsiderScenario.checkpoints, h.owner = name) ↔
      name ∈ ["sink", "outsider", "source"] := List.mem_map.symm
  simp only [none, edge, owner, false_or, exists_eq_left, List.mem_cons]
  grind

end Rollback.Scenario
