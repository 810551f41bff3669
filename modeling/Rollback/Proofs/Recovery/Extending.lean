import Rollback.Proofs.Recovery.Downstream

/-!
# More checkpoints

Checkpoints that are added to the histories of known instances, and on which nothing that was there
before depends, take no instance back further. Each instance may stay on its checkpoint or on its
live state, wherever that is in the longer histories (`Consistent.raised`). So a recovery that found
a line finds another one that is as new, for the same instances (`recover_of_more`).
-/

namespace Rollback

/-- More checkpoints of the instances that are known. Nothing that was there before depends on one of
them. -/
structure Extends (headers more : List Header) (graph : Graph) : Prop where
  kept : headers ⊆ more
  known : ∀ h ∈ more, h ∉ headers → h.owner ∈ graph.names ∨ ∃ k ∈ headers, k.owner = h.owner
  unnamed : ∀ h ∈ more, h ∉ headers → ∀ k ∈ headers,
    ∀ peer : String, k.dependencies[peer]? ≠ some h.id

/-- What one of the old checkpoints depends on is no new one. -/
theorem Extends.mem_of_recorded {headers more : List Header} {graph : Graph}
    (extend : Extends headers more graph) {h k : Header} {peer : String} (old : k ∈ headers)
    (recorded : k.dependencies[peer]? = some h.id) (member : h ∈ more) : h ∈ headers := by
  by_contra new
  exact extend.unnamed h member new k old peer recorded

namespace Chronicle

variable {headers more : List Header} {graph : Graph} {c d : Chronicle} {failed : List String}
  {reuse : Bool} {selected : String → Nat} {line : Line} {name : String}

/-- The selection that keeps each instance on its checkpoint or on its live state, in other
histories. -/
def raised (c d : Chronicle) (selected : String → Nat) (name : String) : Nat :=
  match (c.history name)[selected name]? with
  | some h => ((d.history name).findIdx? (·.id = h.id)).getD 0
  | none => (d.history name).length

/-! ## Who goes back -/

/-- The graph and the failures alone tell who goes back. -/
theorem Greatest.lt_iff (accepted : ofHeaders headers graph = .ok c)
    (real : ∀ h ∈ headers, h.id ≠ .nil)
    (stored : ∀ name, c.TakesPart failed name → c.history name ≠ [])
    (greatest : c.Greatest failed reuse selected) (part : c.TakesPart failed name) :
    selected name < (c.history name).length ↔ (reuse = true → graph.Downstream failed name) := by
  cases reuse with
  | true =>
    simp only [true_imp_iff]
    constructor
    · exact fun back => graph_of_accepted accepted ▸ greatest.downstream_of_lt part back
    · exact fun down => (greatest.consistent.lt_of_downstream accepted real stored down).2
  | false =>
    simp only [Bool.false_eq_true, false_imp_iff, iff_true]
    obtain inside | ⟨_, reused, _⟩ := greatest.consistent.isPosition name part
    · exact inside
    · contradiction

section Accepted

variable (accepted : ofHeaders headers graph = .ok c) (accepted' : ofHeaders more graph = .ok d)
  (extend : Extends headers more graph)

include accepted accepted' extend

theorem takesPart_of_more : d.TakesPart failed name ↔ c.TakesPart failed name := by
  rw [takesPart_iff accepted, takesPart_iff accepted']
  constructor
  · rintro (named | ⟨h, member, rfl⟩ | failed)
    · exact Or.inl named
    · by_cases old : h ∈ headers
      · exact Or.inr (Or.inl ⟨h, old, rfl⟩)
      · exact (extend.known h member old).imp_right Or.inl
    · exact Or.inr (Or.inr failed)
  · rintro (named | ⟨h, member, owned⟩ | failed)
    · exact Or.inl named
    · exact Or.inr (Or.inl ⟨h, extend.kept member, owned⟩)
    · exact Or.inr (Or.inr failed)

/-- What stands in a history stands in the longer one, at the raised place. -/
theorem getElem?_raised {h : Header} (stands : (c.history name)[selected name]? = some h) :
    (d.history name)[c.raised d selected name]? = some h := by
  obtain ⟨member, owned⟩ := (mem_history accepted).mp (List.mem_of_getElem? stands)
  obtain ⟨place, there⟩ :=
    List.mem_iff_getElem?.mp ((mem_history accepted').mpr ⟨extend.kept member, owned⟩)
  have found := (findIdx?_id_eq_some_iff (history_distinct accepted' name)).mpr ⟨h, there, rfl⟩
  simp only [raised, stands, found, Option.getD_some]
  exact there

omit accepted accepted' extend in
theorem raised_of_live (live : selected name = (c.history name).length) :
    c.raised d selected name = (d.history name).length := by
  simp only [raised, live, List.getElem?_eq_none (Nat.le_refl _)]

/-- A checkpoint that was below the selection of its owner is still below it. -/
theorem lt_raised {peer : String} (isPosition : c.IsPosition failed reuse peer (selected peer))
    {below place : Nat} {h : Header} (stood : (c.history peer)[below]? = some h)
    (under : below < selected peer) (stands : (d.history peer)[place]? = some h) :
    place < c.raised d selected peer := by
  obtain inside | ⟨live, _⟩ := isPosition
  · obtain ⟨k, above⟩ : ∃ k, (c.history peer)[selected peer]? = some k :=
      ⟨_, List.getElem?_eq_getElem inside⟩
    by_contra higher
    have notOlder := not_isOlder_of_le accepted' (Nat.le_of_not_lt higher)
      (getElem?_raised accepted accepted' extend above) stands
    rw [isOlder_of_lt accepted under stood above] at notOlder
    contradiction
  · rw [raised_of_live live]
    exact (List.getElem?_eq_some_iff.mp stands).1

/-- Among the longer histories a consistent selection stays consistent. -/
theorem Consistent.raised (real : ∀ h ∈ headers, h.id ≠ .nil)
    (stored : ∀ name, c.TakesPart failed name → c.history name ≠ [])
    (consistent : c.Consistent failed reuse selected) :
    d.Consistent failed reuse (c.raised d selected) := by
  have part : ∀ {name}, d.TakesPart failed name → c.TakesPart failed name :=
    (takesPart_of_more accepted accepted' extend).mp
  constructor
  · intro name taking
    obtain inside | ⟨live, keeps⟩ := consistent.isPosition name (part taking)
    · have stands := getElem?_raised accepted accepted' extend (List.getElem?_eq_getElem inside)
      exact Or.inl (List.getElem?_eq_some_iff.mp stands).1
    · exact Or.inr ⟨raised_of_live live, keeps⟩
  · intro name taking peer peerTaking other id realId depends place h stands named
    have peerAt := consistent.isPosition peer (part peerTaking)
    obtain inside | ⟨live, keeps⟩ := consistent.isPosition name (part taking)
    · -- a stored checkpoint depends on what it depended on before
      obtain ⟨k, here⟩ : ∃ k, (c.history name)[selected name]? = some k :=
        ⟨_, List.getElem?_eq_getElem inside⟩
      have there := getElem?_raised accepted accepted' extend here
      generalize c.raised d selected name = position at depends there
      cases depends with
      | @stored _ k' _ _ stands' recorded =>
        cases Option.some.inj (there.symm.trans stands')
        have old := ((mem_history accepted).mp (List.mem_of_getElem? here)).1
        obtain ⟨member, owned⟩ := (mem_history accepted').mp (List.mem_of_getElem? stands)
        have known := extend.mem_of_recorded old (named ▸ recorded) member
        obtain ⟨below, stood⟩ :=
          List.mem_iff_getElem?.mp ((mem_history accepted).mpr ⟨known, owned⟩)
        exact lt_raised accepted accepted' extend peerAt stood
          (consistent.newer name (part taking) peer (part peerTaking) other id realId
            (.stored here recorded) below h stood named) stands
      | live =>
        rw [List.getElem?_eq_none (Nat.le_refl _)] at there
        contradiction
    · -- live state stands on the newest checkpoints, so its peers are alive as well
      have edge : (⟨peer, name⟩ : Edge) ∈ c.graph.edges := by
        rw [raised_of_live live] at depends
        generalize here : (d.history name).length = position at depends
        cases depends with
        | stored stands' _ =>
          rw [List.getElem?_eq_none (Nat.le_of_eq here)] at stands'
          contradiction
        | live _ edge _ =>
          rw [graph_of_accepted accepted]
          rwa [graph_of_accepted accepted'] at edge
      obtain ⟨newest, last, latest⟩ := exists_newest (stored peer (part peerTaking))
      have known := ((mem_history accepted).mp (List.mem_of_getElem? last)).1
      have top := consistent.live_of_edge (part taking) (part peerTaking) edge live keeps latest
        (real newest known)
      rw [raised_of_live top]
      exact (List.getElem?_eq_some_iff.mp stands).1

end Accepted

/-- More checkpoints of known instances, on which nothing depends that was there before, never take
away a line: there is one for the same instances, and it takes none of them back further. -/
theorem recover_of_more (accepted : ofHeaders headers graph = .ok c)
    (accepted' : ofHeaders more graph = .ok d) (real : ∀ h ∈ more, h.id ≠ .nil)
    (extend : Extends headers more graph) (failed : List String) (reuse : Bool) {line : Line}
    (recovers : c.recover failed reuse = .ok line) :
    ∃ line', d.recover failed reuse = .ok line' ∧
      (∀ name, name ∈ line'.selections ↔ name ∈ line.selections) ∧
      ∀ name id, line.checkpointFor name = some id →
        ∃ a ∈ headers, a.owner = name ∧ a.id = id ∧
          ∃ b ∈ more, b.owner = name ∧ line'.checkpointFor name = some b.id ∧
            b.isOlder a = false := by
  have realOld : ∀ h ∈ headers, h.id ≠ .nil := fun h member => real h (extend.kept member)
  have part : ∀ {name}, d.TakesPart failed name ↔ c.TakesPart failed name :=
    takesPart_of_more accepted accepted' extend
  obtain ⟨stored, low, isGreatest, isLine⟩ := greatest_of_recover accepted recovers
  have stored' : ∀ name, d.TakesPart failed name → d.history name ≠ [] := by
    intro name taking empty
    obtain ⟨h, member⟩ := List.exists_mem_of_ne_nil _ (stored name (part.mp taking))
    obtain ⟨old, owned⟩ := (mem_history accepted).mp member
    exact (history_eq_nil_iff accepted').mp empty h (extend.kept old) owned
  have consistent := isGreatest.consistent.raised accepted accepted' extend realOld stored
  obtain ⟨line', recovers'⟩ := recover_of_consistent accepted' stored' consistent
  obtain ⟨_, high, isGreatest', isLine'⟩ := greatest_of_recover accepted' recovers'
  have same : ∀ name, name ∈ line'.selections ↔ name ∈ line.selections := by
    intro name
    rw [mem_selections_iff isLine, mem_selections_iff isLine', part]
    refine and_congr_right fun taking => ?_
    rw [isGreatest.lt_iff accepted realOld stored taking,
      isGreatest'.lt_iff accepted' real stored' (part.mpr taking)]
  refine ⟨line', recovers', same, ?_⟩
  intro name id chosen
  obtain ⟨selects, _⟩ := Option.filter_eq_some_iff.mp chosen
  obtain ⟨taking, a, stands, rfl⟩ := (isLine name id).mp selects
  obtain ⟨old, owned⟩ := (mem_history accepted).mp (List.mem_of_getElem? stands)
  have back := (mem_selections_iff isLine').mp
    ((same name).mpr ((mem_selections_iff isLine).mpr
      ⟨taking, (List.getElem?_eq_some_iff.mp stands).1⟩))
  obtain ⟨b, stands'⟩ : ∃ b, (d.history name)[high name]? = some b :=
    ⟨_, List.getElem?_eq_getElem back.2⟩
  obtain ⟨member, owned'⟩ := (mem_history accepted').mp (List.mem_of_getElem? stands')
  refine ⟨a, old, owned, rfl, b, member, owned', ?_, ?_⟩
  · exact Option.filter_eq_some_iff.mpr
      ⟨(isLine' name b.id).mpr ⟨back.1, b, stands', rfl⟩, by simpa using real b member⟩
  · exact not_isOlder_of_le accepted' (isGreatest'.above _ consistent name (part.mpr taking))
      (getElem?_raised accepted accepted' extend stands) stands'

/-- Another checkpoint of the source. -/
def sourceAgain : Header where
  id := .ofDigit 4
  owner := "source"
  createdAt := Instant.epoch.tick.tick.tick
  dependencies := (∅ : Dependencies).insert "source" (.ofDigit 1)

def sourceTwice : List Header := sourceAndSink ++ [sourceAgain]

theorem extends_sourceTwice : Extends sourceAndSink sourceTwice oneEdge := by
  have new : ∀ h ∈ sourceTwice, h ∉ sourceAndSink → h = sourceAgain := by
    intro h member fresh
    simpa [sourceTwice, fresh] using member
  constructor
  · exact List.subset_append_left _ _
  · intro h member fresh
    cases new h member fresh
    exact Or.inr ⟨sourceAndSink[0], by simp [sourceAndSink], rfl⟩
  · intro h member fresh k old peer recorded
    cases new h member fresh
    have none : ∀ k ∈ sourceAndSink, ∀ e ∈ k.dependencies.toList, e.2 ≠ sourceAgain.id := by
      decide +kernel
    exact none k old _ (Std.ExtTreeMap.mem_toList_iff_getElem?_eq_some.mpr recorded) rfl

/-- With it, a failure of the source takes the sink back to its second checkpoint only. -/
theorem recover_of_more_source : Extends sourceAndSink sourceTwice oneEdge ∧
    (inOrder sourceAndSink sourceAndSink oneEdge).recover ["source"] true =
      .ok (lineOf (.ofDigit 1) (.ofDigit 2)) ∧
    (inOrder sourceTwice sourceTwice oneEdge).recover ["source"] true =
      .ok (lineOf (.ofDigit 4) (.ofDigit 3)) ∧
    ∃ a ∈ sourceAndSink, a.owner = "sink" ∧ a.id = .ofDigit 2 ∧
      ∃ b ∈ sourceTwice, b.owner = "sink" ∧ b.id = .ofDigit 3 ∧ b.isOlder a = false := by
  have accepted : ofHeaders sourceTwice oneEdge = .ok (inOrder sourceTwice sourceTwice oneEdge) :=
    ofHeaders_eq_inOrder (by decide +kernel) (.refl _) (by decide +kernel)
  have recovers : (inOrder sourceTwice sourceTwice oneEdge).recover ["source"] true =
      .ok (lineOf (.ofDigit 4) (.ofDigit 3)) := recover_of_lineWithin (n := 2) (by decide +kernel)
  obtain ⟨line', recovers', _, asNew⟩ := recover_of_more ofHeaders_sourceAndSink accepted
    (by decide) extends_sourceTwice ["source"] true recover_sourceAndSink
  cases Except.ok.inj (recovers.symm.trans recovers')
  obtain ⟨a, old, owned, named, b, member, owned', chosen, notOlder⟩ :=
    asNew "sink" (.ofDigit 2) (by decide +kernel)
  have third : (lineOf (.ofDigit 4) (.ofDigit 3)).checkpointFor "sink" = some (.ofDigit 3) := by
    decide +kernel
  exact ⟨extends_sourceTwice, recover_sourceAndSink, recovers, a, old, owned, named, b, member,
    owned', Option.some.inj (chosen.symm.trans third), notOlder⟩

end Chronicle

end Rollback
