import Rollback.Proofs.Recovery.Greatest

/-!
# What a failure reaches

Live state stands on the newest checkpoints of the instances in front of it, so it is lost as soon as
one of them goes back. No recorded dependency takes down an instance that keeps its live state.
Hence exactly those instances go back to which data flows from a failed one (`mem_affected_iff`).
-/

namespace Rollback

/-- Data flows to an instance from one of the given instances, over any number of edges. -/
inductive Graph.Downstream (g : Graph) (roots : List String) : String → Prop where
  | root {name : String} (member : name ∈ roots) : Downstream g roots name
  | edge {source target : String} (before : Downstream g roots source)
      (along : (⟨source, target⟩ : Edge) ∈ g.edges) : Downstream g roots target

namespace Chronicle

variable {headers : List Header} {graph : Graph} {c : Chronicle} {failed : List String}
  {reuse : Bool} {selected : String → Nat} {line : Line} {name : String}

theorem mem_selections_iff (isLine : c.IsLineOf failed selected line) :
    name ∈ line.selections ↔ c.TakesPart failed name ∧ selected name < (c.history name).length := by
  rw [Std.ExtTreeMap.mem_iff_isSome_getElem?, Option.isSome_iff_exists]
  constructor
  · rintro ⟨id, selects⟩
    obtain ⟨part, h, stands, _⟩ := (isLine name id).mp selects
    exact ⟨part, (List.getElem?_eq_some_iff.mp stands).1⟩
  · rintro ⟨part, inside⟩
    exact ⟨_, (isLine name _).mpr ⟨part, _, List.getElem?_eq_getElem inside, rfl⟩⟩

/-- The line restores the instances that are put on a checkpoint, if no checkpoint has the nil id. -/
theorem mem_affected_iff_lt (accepted : ofHeaders headers graph = .ok c)
    (real : ∀ h ∈ headers, h.id ≠ .nil) (isLine : c.IsLineOf failed selected line) :
    name ∈ line.affected ↔
      c.TakesPart failed name ∧ selected name < (c.history name).length := by
  rw [Line.mem_affected, Line.checkpointFor, Option.isSome_iff_exists]
  simp only [Option.filter_eq_some_iff]
  constructor
  · rintro ⟨id, selects, _⟩
    obtain ⟨part, h, stands, _⟩ := (isLine name id).mp selects
    exact ⟨part, (List.getElem?_eq_some_iff.mp stands).1⟩
  · rintro ⟨part, inside⟩
    have stands := List.getElem?_eq_getElem inside
    have known := ((mem_history accepted).mp (List.getElem_mem inside)).1
    exact ⟨_, (isLine name _).mpr ⟨part, _, stands, rfl⟩, by simpa using real _ known⟩

/-- Live state stands on the newest checkpoints of the instances in front of it, so they keep theirs
as well. -/
theorem Consistent.live_of_edge {source target : String} {newest : Header}
    (consistent : c.Consistent failed reuse selected) (part : c.TakesPart failed target)
    (sourcePart : c.TakesPart failed source) (along : (⟨source, target⟩ : Edge) ∈ c.graph.edges)
    (live : selected target = (c.history target).length) (keeps : KeepsLive failed reuse target)
    (latest : c.latest source = some newest) (real : newest.id ≠ .nil) :
    selected source = (c.history source).length := by
  by_cases loop : source = target
  · rw [loop, live]
  · have above := consistent.newer target part source sourcePart loop newest.id real
      (live ▸ .live keeps along latest) _ newest (List.getLast?_eq_getElem?.symm.trans latest) rfl
    obtain inside | ⟨top, _⟩ := consistent.isPosition source sourcePart
    · omega
    · exact top

section Accepted

variable (accepted : ofHeaders headers graph = .ok c)

include accepted

/-- What is downstream of a failure goes back. -/
theorem Consistent.lt_of_downstream (real : ∀ h ∈ headers, h.id ≠ .nil)
    (stored : ∀ name, c.TakesPart failed name → c.history name ≠ [])
    (consistent : c.Consistent failed true selected) (down : graph.Downstream failed name) :
    c.TakesPart failed name ∧ selected name < (c.history name).length := by
  induction down with
  | @root name member =>
    refine ⟨Or.inr member, ?_⟩
    obtain inside | ⟨_, _, alive⟩ := consistent.isPosition name (Or.inr member)
    · exact inside
    · exact absurd member alive
  | @edge source target _ along ih =>
    obtain ⟨sourcePart, back⟩ := ih
    have part : c.TakesPart failed target := (takesPart_iff accepted).mpr
      (Or.inl (Graph.mem_names.mpr (Or.inr ⟨_, along, Or.inr rfl⟩)))
    refine ⟨part, ?_⟩
    obtain inside | ⟨top, keeps⟩ := consistent.isPosition target part
    · exact inside
    · obtain ⟨newest, last, latest⟩ := exists_newest (stored source sourcePart)
      have known := ((mem_history accepted).mp (List.mem_of_getElem? last)).1
      have live := consistent.live_of_edge part sourcePart
        ((graph_of_accepted accepted).symm ▸ along) top keeps latest (real newest known)
      omega

end Accepted

open Classical in
/-- The selection that keeps alive what no failure reaches, and is as it was everywhere else. -/
noncomputable def spare (c : Chronicle) (failed : List String) (selected : String → Nat)
    (name : String) : Nat :=
  if c.graph.Downstream failed name then selected name else (c.history name).length

theorem le_spare (consistent : c.Consistent failed true selected) (part : c.TakesPart failed name) :
    selected name ≤ c.spare failed selected name := by
  rw [spare]
  split
  · exact Nat.le_refl _
  · obtain inside | ⟨top, _⟩ := consistent.isPosition name part
    · exact Nat.le_of_lt inside
    · exact Nat.le_of_eq top

/-- What no failure reaches stands on nothing that a failure reaches. -/
theorem Consistent.spare (consistent : c.Consistent failed true selected) :
    c.Consistent failed true (c.spare failed selected) := by
  constructor
  · intro name part
    rw [Chronicle.spare]
    split
    · exact consistent.isPosition name part
    · rename_i apart
      exact Or.inr ⟨rfl, rfl, fun member => apart (.root member)⟩
  · intro name part peer peerPart other id real depends position h stands named
    by_cases down : c.graph.Downstream failed name
    · rw [Chronicle.spare, if_pos down] at depends
      exact Nat.lt_of_lt_of_le
        (consistent.newer name part peer peerPart other id real depends position h stands named)
        (le_spare consistent peerPart)
    · rw [Chronicle.spare, if_neg down] at depends
      have apart : ¬ c.graph.Downstream failed peer := by
        intro before
        cases depends with
        | stored stands _ =>
          rw [List.getElem?_eq_none (Nat.le_refl _)] at stands
          contradiction
        | live _ along _ => exact down (before.edge along)
      rw [Chronicle.spare, if_neg apart]
      exact (List.getElem?_eq_some_iff.mp stands).1

theorem Greatest.downstream_of_lt (greatest : c.Greatest failed true selected)
    (part : c.TakesPart failed name) (back : selected name < (c.history name).length) :
    c.graph.Downstream failed name := by
  by_contra apart
  have below := greatest.above _ greatest.consistent.spare name part
  rw [spare, if_neg apart] at below
  omega

/-- If live state may be reused, a line takes back exactly the instances to which data flows from a
failed one, whatever checkpoints depend on: the failed ones themselves, everything downstream of an
instance that goes back, and nothing else. -/
theorem mem_affected_iff (accepted : ofHeaders headers graph = .ok c)
    (real : ∀ h ∈ headers, h.id ≠ .nil) (recovers : c.recover failed = .ok line) :
    (∀ name, name ∈ line.affected ↔ graph.Downstream failed name) ∧
    (∀ name ∈ failed, name ∈ line.affected) ∧
    ∀ source ∈ line.affected, ∀ target, (⟨source, target⟩ : Edge) ∈ graph.edges →
      target ∈ line.affected := by
  obtain ⟨stored, selected, greatest, isLine⟩ := greatest_of_recover accepted recovers
  have reached : ∀ name, name ∈ line.affected ↔ graph.Downstream failed name := by
    intro name
    rw [mem_affected_iff_lt accepted real isLine]
    constructor
    · rintro ⟨part, back⟩
      exact graph_of_accepted accepted ▸ greatest.downstream_of_lt part back
    · exact greatest.consistent.lt_of_downstream accepted real stored
  refine ⟨reached, ?_, ?_⟩
  · intro name member
    exact (reached name).mpr (.root member)
  · intro source member target along
    exact (reached target).mpr (((reached source).mp member).edge along)

/-- A failed sink goes back alone, although its newest checkpoint depends on one of the source. -/
theorem affected_sink : ofHeaders sourceAndSink oneEdge =
      .ok (inOrder sourceAndSink sourceAndSink oneEdge) ∧
    (inOrder sourceAndSink sourceAndSink oneEdge).recover ["sink"] =
      .ok ⟨(∅ : Dependencies).insert "sink" (.ofDigit 3)⟩ ∧
    ∀ name, name ∈ Line.affected ⟨(∅ : Dependencies).insert "sink" (.ofDigit 3)⟩ ↔
      oneEdge.Downstream ["sink"] name := by
  have recovers : (inOrder sourceAndSink sourceAndSink oneEdge).recover ["sink"] =
      .ok ⟨(∅ : Dependencies).insert "sink" (.ofDigit 3)⟩ :=
    recover_of_lineWithin (n := 1) (by decide +kernel)
  exact ⟨ofHeaders_sourceAndSink, recovers,
    (mem_affected_iff ofHeaders_sourceAndSink (by decide) recovers).1⟩

end Chronicle

end Rollback
