import Rollback.Proofs.Recovery.Greatest

/-!
# More and fewer failures

A selection that is consistent after some failures is consistent after fewer of them as well. So
fewer failures take no instance back further, and nothing goes back further than after a failure of
all (`recover_of_fewer`). Without reuse of live state every failure is like one of all.
-/

namespace Rollback

namespace Chronicle

/-- Where a line leaves an instance: at the place of the selected checkpoint in its history, or above
the history if the line leaves the instance out. -/
def standing (c : Chronicle) (line : Line) (name : String) : Nat :=
  match line.selections[name]? with
  | some id => ((c.history name).findIdx? (·.id = id)).getD (c.history name).length
  | none => (c.history name).length

/-- A line that takes no instance back further than another one does. -/
def AsNew (c : Chronicle) (line other : Line) : Prop :=
  ∀ name ∈ c.names, c.standing other name ≤ c.standing line name

variable {headers : List Header} {graph : Graph} {c : Chronicle} {failed more : List String}
  {reuse : Bool} {selected : String → Nat} {line : Line} {name : String}

theorem standing_eq (accepted : ofHeaders headers graph = .ok c)
    (isLine : c.IsLineOf failed selected line) (part : c.TakesPart failed name)
    (isPosition : c.IsPosition failed reuse name (selected name)) :
    c.standing line name = selected name := by
  obtain inside | ⟨top, _⟩ := isPosition
  · obtain ⟨h, stands⟩ : ∃ h, (c.history name)[selected name]? = some h :=
      ⟨_, List.getElem?_eq_getElem inside⟩
    have selects : line.selections[name]? = some h.id := (isLine name h.id).mpr ⟨part, h, stands, rfl⟩
    have place := (findIdx?_id_eq_some_iff (history_distinct accepted name)).mpr ⟨h, stands, rfl⟩
    simp only [standing, selects, place, Option.getD_some]
  · have leaves : line.selections[name]? = none := by
      rw [Option.eq_none_iff_forall_ne_some]
      intro id selects
      obtain ⟨_, h, stands, _⟩ := (isLine name id).mp selects
      rw [top, List.getElem?_eq_none (Nat.le_refl _)] at stands
      contradiction
    simp only [standing, leaves, top]

/-! ## Fewer failures -/

theorem KeepsLive.of_fewer (fewer : failed ⊆ more) (keeps : KeepsLive more reuse name) :
    KeepsLive failed reuse name :=
  ⟨keeps.1, fun member => keeps.2 (fewer member)⟩

theorem takesPart_of_known (known : failed ⊆ c.names) :
    c.TakesPart failed name ↔ name ∈ c.names :=
  ⟨fun part => part.elim id fun member => known member, Or.inl⟩

/-- A dependency of live state that is kept after fewer failures only is one that the selection does
not ask for. -/
theorem Consistent.of_fewer (fewer : failed ⊆ more) (known : more ⊆ c.names)
    (consistent : c.Consistent more reuse selected) : c.Consistent failed reuse selected := by
  have part : ∀ {name}, c.TakesPart failed name → c.TakesPart more name := by
    intro name part
    rw [takesPart_of_known known]
    exact (takesPart_of_known fun _ member => known (fewer member)).mp part
  constructor
  · intro name taking
    obtain inside | ⟨top, keeps⟩ := consistent.isPosition name (part taking)
    · exact Or.inl inside
    · exact Or.inr ⟨top, keeps.of_fewer fewer⟩
  · intro name taking peer peerTaking other id real depends
    refine consistent.newer name (part taking) peer (part peerTaking) other id real ?_
    generalize here : selected name = position at depends
    cases depends with
    | stored stands recorded => exact .stored stands recorded
    | live _ edge top =>
      obtain inside | ⟨_, keeps⟩ := consistent.isPosition name (part taking)
      · omega
      · exact .live keeps edge top

theorem recover_asNew (accepted : ofHeaders headers graph = .ok c) (fewer : failed ⊆ more)
    (known : more ⊆ c.names) {worse : Line} (recovers : c.recover more reuse = .ok worse) :
    ∃ line, c.recover failed reuse = .ok line ∧ c.AsNew line worse := by
  obtain ⟨stored, low, isGreatest, isWorse⟩ := greatest_of_recover accepted recovers
  have known' : failed ⊆ c.names := fun _ member => known (fewer member)
  have consistent := isGreatest.consistent.of_fewer fewer known
  obtain ⟨line, recovers'⟩ := recover_of_consistent accepted
    (fun name part => stored name (Or.inl ((takesPart_of_known known').mp part))) consistent
  obtain ⟨_, high, isGreatest', isLine⟩ := greatest_of_recover accepted recovers'
  refine ⟨line, recovers', ?_⟩
  intro name member
  rw [standing_eq accepted isWorse (Or.inl member)
      (isGreatest.consistent.isPosition name (Or.inl member)),
    standing_eq accepted isLine (Or.inl member)
      (isGreatest'.consistent.isPosition name (Or.inl member))]
  exact isGreatest'.above low consistent name (Or.inl member)

/-! ## Failures of all -/

theorem required_of_known (known : failed ⊆ c.names) :
    c.required (NameSet.ofNames failed) = c.required (NameSet.ofNames c.names) := by
  apply Std.ExtTreeSet.ext_mem
  intro name
  rw [← Std.ExtTreeSet.mem_toList, ← Std.ExtTreeSet.mem_toList, mem_required, mem_required,
    takesPart_of_known known, takesPart_of_known fun _ member => member]

/-- Without reuse no live state takes part, and none is left if all have failed. -/
theorem lanes_without_reuse (known : failed ⊆ c.names) :
    c.lanes (NameSet.ofNames failed) false = c.lanes (NameSet.ofNames c.names) true := by
  rw [lanes, lanes, required_of_known known]
  congr 1
  apply List.map_congr_left
  intro name member
  have member := (takesPart_of_known fun _ member => member).mp (mem_required.mp member)
  simp [lane, NameSet.mem_ofNames, member]

theorem recover_without_reuse (known : failed ⊆ c.names) :
    c.recover failed false = c.recover c.names true := by
  simp only [recover, required_of_known known, lanes_without_reuse known]

/-- If there is a line after some failures, there is one after fewer of them, which takes no instance
back further. Without reuse of live state every failure of known instances ends like one of all of
them, so that no failure takes an instance back further than that. -/
theorem recover_of_fewer (accepted : ofHeaders headers graph = .ok c) :
    (∀ (failed more : List String) (reuse : Bool), failed ⊆ more → more ⊆ c.names →
      ∀ worse, c.recover more reuse = .ok worse →
        ∃ line, c.recover failed reuse = .ok line ∧ c.AsNew line worse) ∧
    (∀ failed : List String, failed ⊆ c.names →
      c.recover failed false = c.recover c.names true) ∧
    (∀ failed : List String, failed ⊆ c.names → ∀ worst, c.recover c.names true = .ok worst →
      ∃ line, c.recover failed true = .ok line ∧ c.AsNew line worst) := by
  refine ⟨?_, fun failed known => recover_without_reuse known, ?_⟩
  · intro failed more reuse fewer known worse recovers
    exact recover_asNew accepted fewer known recovers
  · intro failed known worst recovers
    exact recover_asNew accepted known (fun _ member => member) recovers

/-- A failure of both takes the sink back to its first checkpoint, and one of the sink alone only to
its second. -/
theorem recover_of_fewer_sink : ofHeaders sourceAndSink oneEdge =
      .ok (inOrder sourceAndSink sourceAndSink oneEdge) ∧
    (inOrder sourceAndSink sourceAndSink oneEdge).recover ["sink", "source"] true =
      .ok (lineOf (.ofDigit 1) (.ofDigit 2)) ∧
    (inOrder sourceAndSink sourceAndSink oneEdge).recover ["sink"] true =
      .ok ⟨(∅ : Dependencies).insert "sink" (.ofDigit 3)⟩ ∧
    (inOrder sourceAndSink sourceAndSink oneEdge).AsNew
      ⟨(∅ : Dependencies).insert "sink" (.ofDigit 3)⟩ (lineOf (.ofDigit 1) (.ofDigit 2)) ∧
    (inOrder sourceAndSink sourceAndSink oneEdge).recover ["sink"] false =
      .ok (lineOf (.ofDigit 1) (.ofDigit 2)) := by
  have names : (inOrder sourceAndSink sourceAndSink oneEdge).names = ["sink", "source"] := by
    decide +kernel
  obtain ⟨fewer, without, _⟩ := recover_of_fewer ofHeaders_sourceAndSink
  have both : (inOrder sourceAndSink sourceAndSink oneEdge).recover ["sink", "source"] true =
      .ok (lineOf (.ofDigit 1) (.ofDigit 2)) := recover_of_lineWithin (n := 2) (by decide +kernel)
  have one : (inOrder sourceAndSink sourceAndSink oneEdge).recover ["sink"] true =
      .ok ⟨(∅ : Dependencies).insert "sink" (.ofDigit 3)⟩ :=
    recover_of_lineWithin (n := 1) (by decide +kernel)
  obtain ⟨line, recovers, asNew⟩ :=
    fewer ["sink"] ["sink", "source"] true (by simp) (by simp [names]) _ both
  cases Except.ok.inj (one.symm.trans recovers)
  refine ⟨ofHeaders_sourceAndSink, both, one, asNew, ?_⟩
  rw [without ["sink"] (by simp [names]), names, both]

end Chronicle

end Rollback
