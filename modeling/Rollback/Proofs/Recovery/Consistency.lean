import Rollback.Proofs.Recovery.Histories

/-!
# Consistent selections

A selection puts each instance that takes part on one of its positions: a checkpoint of its history
or, above them, its live state. It is consistent if what stands there depends on no checkpoint of a
peer that is as new as the peer's own position or newer. The lanes of a search hold exactly these
positions with these dependencies (`isPosition_iff`, `dependsOn_iff`).
-/

namespace Rollback

namespace Chronicle

/-- The instances that a recovery puts on a position. -/
def TakesPart (c : Chronicle) (failed : List String) (name : String) : Prop :=
  name ∈ c.names ∨ name ∈ failed

/-- Live state is kept by an instance that did not fail, if it may be reused at all. -/
def KeepsLive (failed : List String) (reuse : Bool) (name : String) : Prop :=
  reuse = true ∧ name ∉ failed

/-- A place in the history, or the live state on top of it. -/
def IsPosition (c : Chronicle) (failed : List String) (reuse : Bool) (name : String)
    (position : Nat) : Prop :=
  position < (c.history name).length ∨
    position = (c.history name).length ∧ KeepsLive failed reuse name

/-- What stands at a position of an instance depends on a checkpoint of a peer: a checkpoint on
those that it recorded, the live state on the newest one of each instance with an edge into its
own. -/
inductive DependsOn (c : Chronicle) (failed : List String) (reuse : Bool) (name : String) :
    (position : Nat) → (peer : String) → CheckpointId → Prop where
  | stored {position : Nat} {h : Header} {peer : String} {id : CheckpointId}
      (stands : (c.history name)[position]? = some h)
      (recorded : h.dependencies[peer]? = some id) :
      DependsOn c failed reuse name position peer id
  | live {peer : String} {newest : Header} (keeps : KeepsLive failed reuse name)
      (edge : (⟨peer, name⟩ : Edge) ∈ c.graph.edges) (top : c.latest peer = some newest) :
      DependsOn c failed reuse name (c.history name).length peer newest.id

/-- Nothing that is selected depends on a checkpoint that its owner goes back to or behind. What an
instance records under its own name and the nil id ask for nothing, and neither do instances that
take no part and ids that are not in the history. -/
structure Consistent (c : Chronicle) (failed : List String) (reuse : Bool)
    (selected : String → Nat) : Prop where
  isPosition : ∀ name, c.TakesPart failed name →
    c.IsPosition failed reuse name (selected name)
  newer : ∀ name, c.TakesPart failed name → ∀ peer, c.TakesPart failed peer → peer ≠ name →
    ∀ id, id ≠ .nil → c.DependsOn failed reuse name (selected name) peer id →
      ∀ position h, (c.history peer)[position]? = some h → h.id = id → position < selected peer

/-- Consistent, and at no instance below another consistent selection. -/
structure Greatest (c : Chronicle) (failed : List String) (reuse : Bool)
    (selected : String → Nat) : Prop where
  consistent : c.Consistent failed reuse selected
  above : ∀ other, c.Consistent failed reuse other →
    ∀ name, c.TakesPart failed name → other name ≤ selected name

/-- The line has exactly the checkpoints on which a selection puts instances. -/
def IsLineOf (c : Chronicle) (failed : List String) (selected : String → Nat) (line : Line) : Prop :=
  ∀ name id, line.selections[name]? = some id ↔
    c.TakesPart failed name ∧ ∃ h, (c.history name)[selected name]? = some h ∧ h.id = id

theorem exists_newest {c : Chronicle} {name : String} (stored : c.history name ≠ []) :
    ∃ newest, (c.history name)[(c.history name).length - 1]? = some newest ∧
      c.latest name = some newest := by
  have nonempty := List.length_pos_iff.mpr stored
  have last := List.getElem?_eq_getElem (Nat.sub_one_lt_of_lt nonempty)
  exact ⟨_, last, List.getLast?_eq_getElem?.trans last⟩

/-! ## Lanes of a chronicle -/

section Lanes

variable {c : Chronicle} {failed : List String} {reuse : Bool} {name : String}

theorem mem_foldl_insert {names : List String} {all : NameSet} :
    name ∈ names.foldl .insert all ↔ name ∈ all ∨ name ∈ names := by
  induction names generalizing all with
  | nil => simp
  | cons other rest ih =>
    rw [List.foldl_cons, ih, Std.ExtTreeSet.mem_insert, Std.LawfulEqCmp.compare_eq_iff_eq,
      List.mem_cons]
    grind

theorem mem_required :
    name ∈ (c.required (NameSet.ofNames failed)).toList ↔ c.TakesPart failed name := by
  rw [Std.ExtTreeSet.mem_toList, required, mem_foldl_insert, Std.ExtTreeSet.mem_toList, NameSet.mem_ofNames,
    Std.ExtTreeSet.mem_ofList, List.contains_iff_mem]
  exact Iff.rfl

theorem required_nodup (failed : NameSet) : (c.required failed).toList.Nodup :=
  Std.ExtTreeSet.distinct_toList.imp fun different => by simpa using different

theorem getElem?_lanes_eq_some_iff {lane : Lane} :
    (c.lanes (NameSet.ofNames failed) reuse)[name]? = some lane ↔
      c.TakesPart failed name ∧ lane = c.lane (NameSet.ofNames failed) reuse name := by
  rw [lanes, NameMap.getElem?_ofList_map (required_nodup _)
    fun name => c.lane (NameSet.ofNames failed) reuse name]
  by_cases part : c.TakesPart failed name
  · rw [if_pos (mem_required.mpr part)]
    simp [part, eq_comm]
  · rw [if_neg fun member => part (mem_required.mp member)]
    simp [part]

theorem mem_lanes :
    name ∈ c.lanes (NameSet.ofNames failed) reuse ↔ c.TakesPart failed name := by
  rw [Std.ExtTreeMap.mem_iff_isSome_getElem?, Option.isSome_iff_exists]
  simp [getElem?_lanes_eq_some_iff]

theorem lane_live_of_keeps (keeps : KeepsLive failed reuse name) :
    (c.lane (NameSet.ofNames failed) reuse name).live = some (c.liveDependencies name) := by
  obtain ⟨reused, alive⟩ := keeps
  simp [lane, reused, NameSet.mem_ofNames, alive]

theorem lane_live_of_not (gone : ¬ KeepsLive failed reuse name) :
    (c.lane (NameSet.ofNames failed) reuse name).live = none := by
  simp only [KeepsLive, not_and, not_not] at gone
  simpa [lane, NameSet.mem_ofNames] using gone

/-- From the bottom to the top of a lane stand the checkpoints of the history, then what is live. -/
theorem getElem?_candidates {position : Nat} {candidate : Candidate} :
    (c.lane (NameSet.ofNames failed) reuse name).candidates[position]? = some candidate ↔
      (∃ h, (c.history name)[position]? = some h ∧ candidate = .stored h) ∨
      (position = (c.history name).length ∧ KeepsLive failed reuse name ∧
        candidate = .live (c.liveDependencies name)) := by
  have stored : (c.lane (NameSet.ofNames failed) reuse name).history = c.history name := rfl
  by_cases keeps : KeepsLive failed reuse name
  · rw [Lane.candidates, stored, lane_live_of_keeps keeps, Option.toList_some, List.map_singleton,
      List.getElem?_append, List.length_map, List.getElem?_map]
    split
    · rename_i inside
      have below : position ≠ (c.history name).length := Nat.ne_of_lt inside
      simp only [Option.map_eq_some_iff, below, false_and, or_false]
      grind
    · rename_i outside
      have none : (c.history name)[position]? = none :=
        List.getElem?_eq_none (Nat.le_of_not_lt outside)
      have top : position - (c.history name).length = 0 ↔ position = (c.history name).length := by
        omega
      simp [none, keeps, List.getElem?_singleton, top, eq_comm]
  · simp only [Lane.candidates, stored, lane_live_of_not keeps, keeps, Option.toList_none,
      List.map_nil, List.append_nil, List.getElem?_map, Option.map_eq_some_iff, false_and,
      and_false, or_false]
    grind

theorem isPosition_iff {position : Nat} : c.IsPosition failed reuse name position ↔
    position < (c.lane (NameSet.ofNames failed) reuse name).candidates.length := by
  have stored : (c.lane (NameSet.ofNames failed) reuse name).history = c.history name := rfl
  by_cases keeps : KeepsLive failed reuse name
  · simp only [IsPosition, keeps, and_true, Lane.candidates, stored, lane_live_of_keeps keeps,
      Option.toList_some, List.map_singleton, List.length_append, List.length_map,
      List.length_singleton]
    omega
  · simp [IsPosition, keeps, Lane.candidates, stored, lane_live_of_not keeps]

/-! ## What live state depends on -/

/-- Entries that are put in one after the other, each under its own name. -/
theorem getElem?_foldl_of_step {step : Dependencies → String → Dependencies}
    (entry : String → Option CheckpointId)
    (one : ∀ seen name other, (step seen name)[other]? =
      if name = other then (entry name).or seen[other]? else seen[other]?)
    {names : List String} {seen : Dependencies} {name : String} :
    (names.foldl step seen)[name]? =
      if name ∈ names then (entry name).or seen[name]? else seen[name]? := by
  induction names generalizing seen with
  | nil => simp
  | cons first rest ih =>
    rw [List.foldl_cons, ih, one]
    by_cases same : first = name
    · subst same
      cases entry first <;> simp
    · simp [same, Ne.symm same]

theorem getElem?_liveDependencies {peer : String} (other : peer ≠ name) {id : CheckpointId} :
    (c.liveDependencies name)[peer]? = some id ↔
      ∃ newest, (⟨peer, name⟩ : Edge) ∈ c.graph.edges ∧ c.latest peer = some newest ∧
        newest.id = id := by
  unfold liveDependencies
  rw [getElem?_foldl_of_step fun name => (c.latest name).map (·.id)]
  · have member : peer ∈ (c.graph.sources name).toList ↔ (⟨peer, name⟩ : Edge) ∈ c.graph.edges := by
      rw [Std.ExtTreeSet.mem_toList, Graph.mem_sources]
    by_cases edge : (⟨peer, name⟩ : Edge) ∈ c.graph.edges
    · rw [if_pos (member.mpr edge)]
      cases c.latest name <;> simp [edge, Ne.symm other]
    · rw [if_neg fun listed => edge (member.mp listed)]
      cases c.latest name <;> simp [edge, Ne.symm other]
  · intro seen name other
    cases c.latest name <;> simp [Std.ExtTreeMap.getElem?_insert]

theorem dependsOn_iff {position : Nat} {peer : String} {id : CheckpointId} (other : peer ≠ name) :
    c.DependsOn failed reuse name position peer id ↔
      ∃ candidate, (c.lane (NameSet.ofNames failed) reuse name).candidates[position]? =
        some candidate ∧ candidate.dependencies[peer]? = some id := by
  simp only [getElem?_candidates]
  constructor
  · rintro (⟨stands, recorded⟩ | ⟨keeps, edge, top⟩)
    · exact ⟨_, Or.inl ⟨_, stands, rfl⟩, recorded⟩
    · exact ⟨_, Or.inr ⟨rfl, keeps, rfl⟩, (getElem?_liveDependencies other).mpr
        ⟨_, edge, top, rfl⟩⟩
  · rintro ⟨candidate, ⟨h, stands, rfl⟩ | ⟨rfl, keeps, rfl⟩, recorded⟩
    · exact .stored stands recorded
    · obtain ⟨newest, edge, top, rfl⟩ := (getElem?_liveDependencies other).mp recorded
      exact .live keeps edge top

end Lanes

end Chronicle

end Rollback
