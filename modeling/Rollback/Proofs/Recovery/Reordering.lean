import Rollback.Proofs.Recovery.Terminating

/-!
# Recoveries do not depend on order

Headers come in whatever order a store lists them, failures in whatever order they are told, and the
maps of dependencies list their entries in an order of their own. None of this matters: the histories
are in a strict order of age, so there is one chronicle for the same headers, and one answer of a
recovery (`ofHeaders_of_perm`).
-/

namespace Rollback

theorem Header.isOlder_iff_compare {a b : Header} : a.isOlder b = true ↔
    compare a.createdAt b.createdAt = .lt ∨
      a.createdAt = b.createdAt ∧ compare a.id b.id = .lt := by
  rw [isOlder_iff, age_eq, Ordering.then_eq_lt, Std.LawfulEqCmp.compare_eq_iff_eq]

namespace Chronicle

variable {headers others : List Header} {graph : Graph} {c c' : Chronicle}
  {failed failed' : List String}

theorem instances_congr (same : headers.Perm others) (graph : Graph) :
    instances headers graph = instances others graph := by
  apply Std.ExtTreeSet.ext_mem
  intro name
  simp only [mem_instances, same.mem_iff]

/-- There is one chronicle for the same headers. -/
theorem ofHeaders_congr (same : headers.Perm others) (accepted : ofHeaders headers graph = .ok c) :
    ofHeaders others graph = .ok c := by
  obtain ⟨⟨valid, distinct⟩, made⟩ := ofHeaders_eq_ok_iff.mp accepted
  have order : sorted headers = sorted others :=
    eq_of_perm_of_pairwise ((sorted_perm headers).trans (same.trans (sorted_perm others).symm))
      (sorted_pairwise distinct) (sorted_pairwise (distinct.perm same))
  rw [order, instances_congr same] at made
  exact ofHeaders_eq_ok_iff.mpr
    ⟨⟨fun h member => valid h (same.mem_iff.mpr member), distinct.perm same⟩, made⟩

theorem recover_congr (same : ∀ name, name ∈ failed ↔ name ∈ failed') (c : Chronicle)
    (reuse : Bool) : c.recover failed reuse = c.recover failed' reuse := by
  have failures : NameSet.ofNames failed = NameSet.ofNames failed' := by
    apply Std.ExtTreeSet.ext_mem
    intro name
    simp only [NameSet.mem_ofNames, same]
  simp only [recover, failures]

theorem exists_ofHeaders_iff : (∃ c, ofHeaders headers graph = .ok c) ↔
    (∀ h ∈ headers, h.validate = .ok ()) ∧ (headers.map (·.id)).Nodup := by
  simp only [ofHeaders_eq_ok_iff]
  exact ⟨fun ⟨_, accepts, _⟩ => accepts, fun accepts => ⟨_, accepts, rfl⟩⟩

/-- Headers in another order are accepted if these are, which is if they are valid and their ids are
distinct. Then they make the same histories: each header stands once, under its owner, in strictly
ascending order of creation time and id, and the instances are those of the graph and the owners.
After the same failures, told in any order and any number of times, a recovery gives the same line or
the same error for the same instance, in whatever order the maps of dependencies list their
entries. -/
theorem ofHeaders_of_perm (same : headers.Perm others) (graph : Graph) :
    ((∃ c, ofHeaders headers graph = .ok c) ↔ ∃ c, ofHeaders others graph = .ok c) ∧
    ((∃ c, ofHeaders headers graph = .ok c) ↔
      (∀ h ∈ headers, h.validate = .ok ()) ∧ (headers.map (·.id)).Nodup) ∧
    ∀ c c', ofHeaders headers graph = .ok c → ofHeaders others graph = .ok c' →
      (c'.names = c.names ∧ ∀ name, c'.history name = c.history name) ∧
      (∀ name, name ∈ c.names ↔
        (name ∈ graph.instances ∨ ∃ e ∈ graph.edges, e.source = name ∨ e.target = name) ∨
          ∃ h ∈ headers, h.owner = name) ∧
      (c.names.flatMap c.history).Perm headers ∧
      (∀ name, ∀ h ∈ c.history name, h.owner = name) ∧
      (∀ name, (c.history name).Pairwise fun a b => compare a.createdAt b.createdAt = .lt ∨
        a.createdAt = b.createdAt ∧ compare a.id b.id = .lt) ∧
      ∀ failed failed' reuse, (∀ name, name ∈ failed ↔ name ∈ failed') →
        ∃ outcome, c.Gives failed reuse outcome ∧ c'.Gives failed' reuse outcome ∧
          c.recover failed reuse = outcome ∧ c'.recover failed' reuse = outcome := by
  refine ⟨⟨?_, ?_⟩, exists_ofHeaders_iff, ?_⟩
  · rintro ⟨c, accepted⟩
    exact ⟨c, ofHeaders_congr same accepted⟩
  · rintro ⟨c, accepted⟩
    exact ⟨c, ofHeaders_congr same.symm accepted⟩
  · intro c c' accepted accepted'
    cases Except.ok.inj ((ofHeaders_congr same accepted).symm.trans accepted')
    refine ⟨⟨rfl, fun _ => rfl⟩, fun name => ?_, histories_perm accepted, fun name h member => ?_,
      fun name => ?_, fun failed failed' reuse alike => ?_⟩
    · rw [mem_names accepted, Graph.mem_names]
    · exact ((mem_history accepted).mp member).2
    · exact (history_pairwise accepted name).imp Header.isOlder_iff_compare.mp
    · have equal := recover_congr alike c reuse
      exact ⟨c.recover failed reuse, gives_recover c failed reuse,
        equal ▸ gives_recover c failed' reuse, rfl, equal.symm⟩

/-- Two checkpoints of one instance at the same time, the one with the greater id first. -/
def tiedHeaders : List Header := [
  ⟨.ofDigit 2, "a", Instant.epoch.tick, (∅ : Dependencies).insert "a" (.ofDigit 1)⟩,
  ⟨.ofDigit 1, "a", Instant.epoch.tick, (∅ : Dependencies).insert "a" .nil⟩]

/-- In either order the one with the greater id is the newer one, to which the instance goes back. -/
theorem ofHeaders_of_perm_tied : ∃ c c', ofHeaders tiedHeaders .empty = .ok c ∧
    ofHeaders tiedHeaders.reverse .empty = .ok c' ∧ c.history "a" = tiedHeaders.reverse ∧
    c'.history "a" = c.history "a" ∧ ∃ line, line.affected = ["a"] ∧
      line.checkpointFor "a" = some (.ofDigit 2) ∧ c.Gives ["a"] true (.ok line) ∧
      c'.Gives ["a", "a"] true (.ok line) := by
  have older : tiedHeaders.reverse.Pairwise fun a b => a.isOlder b = true := by decide +kernel
  have accepted : ofHeaders tiedHeaders .empty =
      .ok (inOrder tiedHeaders tiedHeaders.reverse .empty) :=
    ofHeaders_eq_inOrder (by decide +kernel) (List.reverse_perm _) older
  have accepted' : ofHeaders tiedHeaders.reverse .empty =
      .ok (inOrder tiedHeaders.reverse tiedHeaders.reverse .empty) :=
    ofHeaders_eq_inOrder (by decide +kernel) (.refl _) older
  have recovers : (inOrder tiedHeaders tiedHeaders.reverse .empty).recover ["a"] true =
      .ok ⟨(∅ : Dependencies).insert "a" (.ofDigit 2)⟩ :=
    recover_of_lineWithin (n := 1) (by decide +kernel)
  obtain ⟨-, -, alike⟩ := ofHeaders_of_perm (List.reverse_perm tiedHeaders).symm .empty
  obtain ⟨⟨-, histories⟩, -, -, -, -, answers⟩ := alike _ _ accepted accepted'
  obtain ⟨outcome, gives, gives', same, -⟩ := answers ["a"] ["a", "a"] true (by simp)
  rw [recovers] at same
  subst same
  exact ⟨_, _, accepted, accepted', by decide +kernel, histories "a", _, by decide +kernel,
    by decide +kernel, gives, gives'⟩

end Chronicle

end Rollback
