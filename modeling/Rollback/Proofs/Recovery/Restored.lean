import Rollback.Proofs.Recovery.Downstream

/-!
# Who is restored

A line should take every failed instance back to a checkpoint of its own, and whoever has an edge
from an instance that goes back should go back as well. The nil id stands for an instance that keeps
its state and for a dependency on nothing, but a header with the nil id is as valid as any other. It
is the only thing that can keep a line from restoring whom it should (`restores_iff`), and it does
(`not_restores_nilSink`).
-/

namespace Rollback

namespace Line

/-- Failed instances go back to checkpoints of their own, and whoever keeps its state has no edge
from an instance that goes back. -/
structure Restores (line : Line) (headers : List Header) (graph : Graph) (failed : List String) :
    Prop where
  failed : ∀ name ∈ failed, ∃ h ∈ headers, h.owner = name ∧ line.checkpointFor name = some h.id
  kept : ∀ name, name ∉ line.affected → ∀ peer, (⟨peer, name⟩ : Edge) ∈ graph.edges →
    line.checkpointFor peer = none

/-- A checkpoint that is selected as the nil id does no harm if its owner need not go back. One that
live state depends on as the nil id does no harm if nobody depends on it who keeps its state. -/
structure Tolerates (line : Line) (c : Chronicle) (failed : List String) (h : Header) : Prop where
  selected : line.selections[h.owner]? = some .nil → h.owner ∉ failed ∧
    ∀ peer, (⟨peer, h.owner⟩ : Edge) ∈ c.graph.edges → line.checkpointFor peer = none
  newest : c.latest h.owner = some h → h.owner ∈ line.affected →
    ∀ target, (⟨h.owner, target⟩ : Edge) ∈ c.graph.edges → target ∈ line.affected

theorem checkpointFor_eq_some_iff {line : Line} {name : String} {id : CheckpointId} :
    line.checkpointFor name = some id ↔ line.selections[name]? = some id ∧ id ≠ .nil := by
  rw [checkpointFor, Option.filter_eq_some_iff, decide_eq_true_eq]

theorem not_mem_affected {line : Line} {name : String} :
    name ∉ line.affected ↔ line.checkpointFor name = none := by
  rw [mem_affected, Bool.not_eq_true, Option.isSome_eq_false_iff, Option.isNone_iff_eq_none]

theorem mem_selections_of_affected {line : Line} {name : String} (back : name ∈ line.affected) :
    name ∈ line.selections := by
  obtain ⟨id, chosen⟩ := Option.isSome_iff_exists.mp (mem_affected.mp back)
  exact Std.ExtTreeMap.mem_iff_isSome_getElem?.mpr
    (Option.isSome_iff_exists.mpr ⟨id, (checkpointFor_eq_some_iff.mp chosen).1⟩)

end Line

namespace Chronicle

variable {headers : List Header} {graph : Graph} {c : Chronicle} {failed : List String}
  {reuse : Bool} {line : Line}

/-- A selected place in the history is a checkpoint of the instance itself. -/
theorem exists_selected {selected : String → Nat} {name : String}
    (accepted : ofHeaders headers graph = .ok c) (isLine : c.IsLineOf failed selected line)
    (part : c.TakesPart failed name) (inside : selected name < (c.history name).length) :
    ∃ h ∈ headers, h.owner = name ∧ line.selections[name]? = some h.id := by
  have stands := List.getElem?_eq_getElem inside
  obtain ⟨known, owned⟩ := (mem_history accepted).mp (List.mem_of_getElem? stands)
  exact ⟨_, known, owned, (isLine name _).mpr ⟨part, _, stands, rfl⟩⟩

theorem tolerates_of_restores (accepted : ofHeaders headers graph = .ok c)
    (restores : line.Restores headers graph failed) (h : Header) :
    line.Tolerates c failed h := by
  have sameGraph := graph_of_accepted accepted
  constructor
  · intro selects
    have keeps : line.checkpointFor h.owner = none := by
      rw [Option.eq_none_iff_forall_ne_some]
      intro id chosen
      obtain ⟨selects', real⟩ := Line.checkpointFor_eq_some_iff.mp chosen
      exact real (Option.some.inj (selects'.symm.trans selects))
    refine ⟨fun member => ?_, fun peer edge => ?_⟩
    · obtain ⟨_, _, _, chosen⟩ := restores.failed h.owner member
      rw [keeps] at chosen
      contradiction
    · exact restores.kept h.owner (Line.not_mem_affected.mpr keeps) peer (sameGraph ▸ edge)
  · intro _ back target edge
    by_contra keeps
    exact Line.not_mem_affected.mpr (restores.kept target keeps h.owner (sameGraph ▸ edge)) back

/-- A line restores whom it should exactly if it puts nobody on a checkpoint with the nil id, and
leaves nobody on live state that depends on one, who has to go back. -/
theorem restores_iff (accepted : ofHeaders headers graph = .ok c)
    (recovers : c.recover failed reuse = .ok line) :
    line.Restores headers graph failed ↔
      ∀ h ∈ headers, h.id = .nil → line.Tolerates c failed h := by
  obtain ⟨stored, selected, greatest, isLine⟩ := greatest_of_recover accepted recovers
  have sameGraph := graph_of_accepted accepted
  constructor
  · exact fun restores h _ _ => tolerates_of_restores accepted restores h
  · intro tolerates
    constructor
    · intro name member
      obtain inside | ⟨_, _, alive⟩ := greatest.consistent.isPosition name (Or.inr member)
      · obtain ⟨h, known, rfl, selects⟩ := exists_selected accepted isLine (Or.inr member) inside
        refine ⟨h, known, rfl, Line.checkpointFor_eq_some_iff.mpr ⟨selects, fun none => ?_⟩⟩
        exact ((tolerates h known none).selected (none ▸ selects)).1 member
      · exact absurd member alive
    · intro name keeps peer edge
      have ends : ∀ worker, worker = peer ∨ worker = name → c.TakesPart failed worker :=
        fun worker is => (takesPart_iff accepted).mpr
          (Or.inl (Graph.mem_names.mpr (Or.inr ⟨_, edge, is.imp Eq.symm Eq.symm⟩)))
      obtain inside | ⟨live, alive⟩ := greatest.consistent.isPosition name (ends name (Or.inr rfl))
      · -- whoever keeps its state although a checkpoint is selected is on the nil id
        obtain ⟨h, known, rfl, selects⟩ :=
          exists_selected accepted isLine (ends name (Or.inr rfl)) inside
        have none : h.id = .nil := by
          by_contra real
          have chosen := Line.checkpointFor_eq_some_iff.mpr ⟨selects, real⟩
          rw [Line.not_mem_affected.mp keeps] at chosen
          contradiction
        exact ((tolerates h known none).selected (none ▸ selects)).2 peer (sameGraph ▸ edge)
      · -- live state behind somebody who goes back depends on the nil id
        rw [← Line.not_mem_affected]
        intro back
        obtain ⟨newest, last, latest⟩ := exists_newest (stored peer (ends peer (Or.inl rfl)))
        obtain ⟨known, rfl⟩ := (mem_history accepted).mp (List.mem_of_getElem? last)
        have none : newest.id = .nil := by
          by_contra real
          have top := greatest.consistent.live_of_edge (ends name (Or.inr rfl))
            (ends _ (Or.inl rfl)) (sameGraph ▸ edge) live alive latest real
          have below := (mem_selections_iff isLine).mp (Line.mem_selections_of_affected back)
          exact absurd top (Nat.ne_of_lt below.2)
        exact keeps ((tolerates newest known none).newest latest back name (sameGraph ▸ edge))

/-- No checkpoint of the source and the sink has the nil id. -/
theorem restores_sourceAndSink :
    (inOrder sourceAndSink sourceAndSink oneEdge).recover ["source"] true =
      .ok (lineOf (.ofDigit 1) (.ofDigit 2)) ∧
    (lineOf (.ofDigit 1) (.ofDigit 2)).Restores sourceAndSink oneEdge ["source"] :=
  ⟨recover_sourceAndSink, (restores_iff ofHeaders_sourceAndSink recover_sourceAndSink).mpr
    fun h member none => absurd none ((by decide : ∀ h ∈ sourceAndSink, h.id ≠ .nil) h member)⟩

/-- A sink whose only checkpoint has the nil id. -/
def nilSink : List Header :=
  [⟨.nil, "sink", Instant.epoch.tick, (∅ : Dependencies).insert "sink" .nil⟩]

/-- The sink fails and has a checkpoint, but nobody is told to restore it. -/
theorem not_restores_nilSink : ∃ c line, ofHeaders nilSink .empty = .ok c ∧
    c.recover ["sink"] true = .ok line ∧ line.affected = [] ∧
    ¬ line.Restores nilSink .empty ["sink"] := by
  have accepted : ofHeaders nilSink .empty = .ok (inOrder nilSink nilSink .empty) :=
    ofHeaders_eq_inOrder (by decide +kernel) (.refl _) (by decide +kernel)
  have recovers : (inOrder nilSink nilSink .empty).recover ["sink"] true =
      .ok ⟨(∅ : Dependencies).insert "sink" .nil⟩ := recover_of_lineWithin (n := 1) (by decide +kernel)
  refine ⟨_, _, accepted, recovers, by decide +kernel, fun restores => ?_⟩
  obtain ⟨_, _, _, chosen⟩ := restores.failed "sink" List.mem_cons_self
  have keeps : Line.checkpointFor ⟨(∅ : Dependencies).insert "sink" .nil⟩ "sink" = none := by
    decide +kernel
  rw [keeps] at chosen
  contradiction

end Chronicle

end Rollback
