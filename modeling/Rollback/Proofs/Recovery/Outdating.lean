import Rollback.Proofs.Recovery.Failures

/-!
# Without what a line outdates

A line outdates the checkpoints that are older than those to which it goes back. Without them the
histories have lost their bottoms and nothing else, and the consistent selections are those that
were above. So another line is found again if it goes back to nothing that is outdated, and
otherwise there is none any more (`recover_without_outdated`). Fewer failures go back to nothing of it.
-/

namespace Rollback

/-- A checkpoint that is older than the one to which the line takes its owner back. -/
def Line.outdates (line : Line) (headers : List Header) (h : Header) : Bool :=
  headers.any fun kept =>
    kept.owner = h.owner && line.checkpointFor h.owner = some kept.id && h.isOlder kept

/-- The other line goes back to nothing that this one outdates. -/
def Line.Spares (line : Line) (headers : List Header) (other : Line) : Prop :=
  ∀ h ∈ headers, other.checkpointFor h.owner = some h.id → line.outdates headers h = false

theorem Line.outdates_eq_true_iff {line : Line} {headers : List Header} {h : Header} :
    line.outdates headers h = true ↔ ∃ kept ∈ headers, kept.owner = h.owner ∧
      line.checkpointFor h.owner = some kept.id ∧ h.isOlder kept = true := by
  simp [outdates, and_assoc]

/-- Without some of what the line outdates, it outdates the same of the rest. -/
theorem Line.outdates_of_perm {line : Line} {headers remaining : List Header} {gone : Header → Bool}
    (same : remaining.Perm (headers.filter fun h => !gone h)) (distinct : DistinctIds headers)
    (only : ∀ h, gone h = true → line.outdates headers h = true) (h : Header) :
    line.outdates remaining h = line.outdates headers h := by
  rw [Bool.eq_iff_iff, outdates_eq_true_iff, outdates_eq_true_iff]
  constructor
  · rintro ⟨kept, known, outdated⟩
    exact ⟨kept, List.mem_of_mem_filter (same.mem_iff.mp known), outdated⟩
  · rintro ⟨kept, known, owned, chosen, older⟩
    refine ⟨kept, same.mem_iff.mpr (List.mem_filter.mpr ⟨known, ?_⟩), owned, chosen, older⟩
    -- the selected checkpoint itself is not outdated
    rw [Bool.not_eq_true', ← Bool.not_eq_true]
    intro lost
    obtain ⟨other, known', _, chosen', older'⟩ := outdates_eq_true_iff.mp (only kept lost)
    rw [owned, chosen, Option.some.injEq] at chosen'
    cases distinct.eq_of_id known known' chosen'
    rw [Header.not_isOlder_self] at older'
    contradiction

/-- What has a property from some place on is what is left behind that place. -/
theorem List.filter_eq_drop {α : Type} {keep : α → Bool} {l : List α} {cut : Nat}
    (above : ∀ (i : Nat) a, l[i]? = some a → (keep a = true ↔ cut ≤ i)) :
    l.filter keep = l.drop cut := by
  induction l generalizing cut with
  | nil => simp
  | cons a rest ih =>
    have first := above 0 a rfl
    cases cut with
    | zero =>
      rw [List.drop_zero, List.filter_eq_self]
      intro b member
      obtain ⟨i, inside, rfl⟩ := List.mem_iff_getElem.mp member
      exact (above i _ (List.getElem?_eq_getElem inside)).mpr (Nat.zero_le _)
    | succ cut =>
      rw [List.drop_succ_cons, List.filter_cons_of_neg (by simp [first])]
      apply ih
      intro i b stands
      rw [above (i + 1) b stands, Nat.add_le_add_iff_right]

namespace Chronicle

variable {headers remaining : List Header} {graph : Graph} {c rest : Chronicle}
  {failed : List String} {reuse : Bool} {selected : String → Nat} {line other : Line}
  {name : String} {h : Header} {cut : String → Nat}

/-- Selections that agree on all who take part have one line only. -/
theorem IsLineOf.unique {selected' : String → Nat} (isLine : c.IsLineOf failed selected line)
    (isOther : c.IsLineOf failed selected' other)
    (same : ∀ name, c.TakesPart failed name → selected name = selected' name) : line = other := by
  have selections : line.selections = other.selections := by
    apply Std.ExtTreeMap.ext_getElem?
    intro name
    apply Option.ext
    intro id
    rw [isLine name id, isOther name id]
    refine and_congr_right fun part => ?_
    rw [same name part]
  exact congrArg Line.mk selections

theorem history_of_unknown (unknown : name ∉ c.names) : c.history name = [] := by
  rw [names, Std.ExtTreeMap.mem_keys] at unknown
  rw [history, getElem?_neg _ _ unknown, Option.getD_none]

/-! ## Histories without their bottoms -/

/-- The second chronicle has lost some of the oldest checkpoints of each instance, but never all. -/
structure Drops (c rest : Chronicle) (cut : String → Nat) : Prop where
  known : ∀ name, name ∈ rest.names ↔ name ∈ c.names
  graph : rest.graph = c.graph
  history : ∀ name, rest.history name = (c.history name).drop (cut name)
  keeps : ∀ name, cut name = 0 ∨ cut name < (c.history name).length

namespace Drops

variable (drops : Drops c rest cut)

include drops

theorem takesPart_iff : rest.TakesPart failed name ↔ c.TakesPart failed name := by
  rw [TakesPart, TakesPart, drops.known]

theorem length_eq (name : String) :
    (rest.history name).length + cut name = (c.history name).length := by
  rw [drops.history, List.length_drop]
  obtain none | some := drops.keeps name <;> omega

theorem getElem?_eq (name : String) (position : Nat) :
    (rest.history name)[position]? = (c.history name)[position + cut name]? := by
  rw [drops.history, List.getElem?_drop, Nat.add_comm]

theorem latest_eq (name : String) : rest.latest name = c.latest name := by
  rw [latest, latest, drops.history]
  obtain none | some := drops.keeps name
  · rw [none, List.drop_zero]
  · rw [List.getLast?_drop, if_neg (Nat.not_le_of_lt some)]

theorem history_ne_nil (stored : c.history name ≠ []) : rest.history name ≠ [] := by
  have length := drops.length_eq name
  have some := List.length_pos_iff.mpr stored
  rw [← List.length_pos_iff]
  obtain none | some := drops.keeps name <;> omega

theorem isPosition_iff {position : Nat} : rest.IsPosition failed reuse name position ↔
    c.IsPosition failed reuse name (position + cut name) := by
  have length := drops.length_eq name
  rw [IsPosition, IsPosition]
  constructor
  · rintro (inside | ⟨top, keeps⟩)
    · exact Or.inl (by omega)
    · exact Or.inr ⟨by omega, keeps⟩
  · rintro (inside | ⟨top, keeps⟩)
    · exact Or.inl (by omega)
    · exact Or.inr ⟨by omega, keeps⟩

theorem dependsOn_iff {position : Nat} {peer : String} {id : CheckpointId} :
    rest.DependsOn failed reuse name position peer id ↔
      c.DependsOn failed reuse name (position + cut name) peer id := by
  constructor
  · rintro (⟨stands, recorded⟩ | ⟨keeps, edge, top⟩)
    · exact .stored (drops.getElem?_eq name position ▸ stands) recorded
    · rw [drops.length_eq]
      exact .live keeps (drops.graph ▸ edge) (drops.latest_eq peer ▸ top)
  · intro depends
    generalize here : position + cut name = place at depends
    cases depends with
    | stored stands recorded =>
      rw [← here, ← drops.getElem?_eq] at stands
      exact .stored stands recorded
    | live keeps edge top =>
      have length := drops.length_eq name
      obtain rfl : position = (rest.history name).length := by omega
      exact .live keeps (drops.graph ▸ edge) (drops.latest_eq peer ▸ top)

/-- The consistent selections are those that were above the bottoms: what depends on a checkpoint
that was dropped depends on nothing any more, and its owner stands above that checkpoint. -/
theorem consistent_iff : rest.Consistent failed reuse selected ↔
    c.Consistent failed reuse fun name => selected name + cut name := by
  constructor
  · intro consistent
    constructor
    · intro name part
      exact drops.isPosition_iff.mp (consistent.isPosition name (drops.takesPart_iff.mpr part))
    · intro name part peer peerPart different id real depends position h stands named
      obtain below | ⟨height, rfl⟩ := Nat.lt_or_ge position (cut peer) |>.imp_right
        fun above => Nat.exists_eq_add_of_le' above
      · exact Nat.lt_add_left _ below
      · rw [← drops.getElem?_eq] at stands
        exact Nat.add_lt_add_right (consistent.newer name (drops.takesPart_iff.mpr part) peer
          (drops.takesPart_iff.mpr peerPart) different id real (drops.dependsOn_iff.mpr depends)
          height h stands named) _
  · intro consistent
    constructor
    · intro name part
      exact drops.isPosition_iff.mpr (consistent.isPosition name (drops.takesPart_iff.mp part))
    · intro name part peer peerPart different id real depends position h stands named
      rw [drops.getElem?_eq] at stands
      exact Nat.lt_of_add_lt_add_right (consistent.newer name (drops.takesPart_iff.mp part) peer
        (drops.takesPart_iff.mp peerPart) different id real (drops.dependsOn_iff.mp depends)
        _ h stands named)

theorem isLineOf_iff : rest.IsLineOf failed selected line ↔
    c.IsLineOf failed (fun name => selected name + cut name) line := by
  simp only [IsLineOf, drops.takesPart_iff, drops.getElem?_eq]

/-- A recovery that goes back to nothing that was dropped ends with the same line. -/
theorem recover_eq (without : ofHeaders remaining graph = .ok rest)
    (stored : ∀ name, c.TakesPart failed name → c.history name ≠ [])
    (greatest : c.Greatest failed reuse selected) (isLine : c.IsLineOf failed selected line)
    (above : ∀ name, c.TakesPart failed name → cut name ≤ selected name) :
    rest.recover failed reuse = .ok line := by
  have raised : (fun name => selected name - cut name + cut name) = selected := by
    funext name
    apply Nat.sub_add_cancel
    by_cases known : name ∈ c.names
    · exact above name (Or.inl known)
    · have keeps := drops.keeps name
      rw [history_of_unknown known, List.length_nil] at keeps
      omega
  have consistent : rest.Consistent failed reuse fun name => selected name - cut name := by
    rw [drops.consistent_iff, raised]
    exact greatest.consistent
  obtain ⟨found, recovers⟩ := recover_of_consistent without
    (fun name part => drops.history_ne_nil (stored name (drops.takesPart_iff.mp part))) consistent
  obtain ⟨_, low, isGreatest, isFound⟩ := greatest_of_recover without recovers
  rw [recovers, (drops.isLineOf_iff.mp isFound).unique isLine ?_]
  intro name part
  have upper := greatest.above _ (drops.consistent_iff.mp isGreatest.consistent) name part
  have lower := isGreatest.above _ consistent name (drops.takesPart_iff.mpr part)
  have enough := above name part
  omega

/-- If a recovery went back to something that was dropped, no selection is consistent any more. -/
theorem recover_eq_error (without : ofHeaders remaining graph = .ok rest)
    (stored : ∀ name, c.TakesPart failed name → c.history name ≠ [])
    (greatest : c.Greatest failed reuse selected) (part : c.TakesPart failed name)
    (below : selected name < cut name) :
    ∃ stuck, rest.recover failed reuse = .error (.noConsistentLine stuck) := by
  obtain ⟨line, recovers⟩ | failure := recover_cases
    (fun name part => drops.history_ne_nil (stored name (drops.takesPart_iff.mp part))) reuse
  · obtain ⟨_, low, isGreatest, _⟩ := greatest_of_recover without recovers
    have bound := greatest.above _ (drops.consistent_iff.mp isGreatest.consistent) name part
    omega
  · exact failure

end Drops

/-! ## What is outdated -/

/-- How many checkpoints of an instance are below the one to which the line takes it back. -/
def below (c : Chronicle) (line : Line) (name : String) : Nat :=
  match line.checkpointFor name with
  | some id => ((c.history name).findIdx? (·.id = id)).getD 0
  | none => 0

section Accepted

variable (accepted : ofHeaders headers graph = .ok c)

include accepted

theorem below_eq_of_stands {position : Nat} {kept : Header}
    (chosen : line.checkpointFor name = some kept.id)
    (stands : (c.history name)[position]? = some kept) : c.below line name = position := by
  have place := (findIdx?_id_eq_some_iff (history_distinct accepted name)).mpr ⟨kept, stands, rfl⟩
  simp only [below, chosen, place, Option.getD_some]

theorem exists_of_pos_below (some_below : 0 < c.below line name) : ∃ kept,
    line.checkpointFor name = some kept.id ∧ (c.history name)[c.below line name]? = some kept := by
  cases chosen : line.checkpointFor name with
  | none => simp [below, chosen] at some_below
  | some id =>
    cases found : (c.history name).findIdx? (·.id = id) with
    | none => simp [below, chosen, found] at some_below
    | some position =>
      obtain ⟨kept, stands, rfl⟩ :=
        (findIdx?_id_eq_some_iff (history_distinct accepted name)).mp found
      exact ⟨kept, rfl, below_eq_of_stands accepted chosen stands ▸ stands⟩

/-- What the line outdates is at the bottom of the history. -/
theorem outdates_iff_lt {position : Nat} (stands : (c.history name)[position]? = some h) :
    line.outdates headers h = true ↔ position < c.below line name := by
  obtain ⟨member, rfl⟩ := (mem_history accepted).mp (List.mem_of_getElem? stands)
  rw [Line.outdates_eq_true_iff]
  constructor
  · rintro ⟨kept, known, owned, chosen, older⟩
    obtain ⟨place, kept_stands⟩ :=
      List.mem_iff_getElem?.mp ((mem_history accepted).mpr ⟨known, owned⟩)
    rw [below_eq_of_stands accepted chosen kept_stands]
    by_contra above
    rw [not_isOlder_of_le accepted (Nat.le_of_not_lt above) kept_stands stands] at older
    contradiction
  · intro under
    obtain ⟨kept, chosen, above⟩ := exists_of_pos_below accepted (Nat.zero_lt_of_lt under)
    obtain ⟨known, owned⟩ := (mem_history accepted).mp (List.mem_of_getElem? above)
    exact ⟨kept, known, owned, chosen, isOlder_of_lt accepted under stands above⟩

/-- Without what the line outdates the histories have lost their bottoms. -/
theorem drops_of_perm (same : remaining.Perm (headers.filter fun h => !line.outdates headers h))
    (without : ofHeaders remaining graph = .ok rest) : Drops c rest (c.below line) := by
  have history : ∀ name, rest.history name = (c.history name).drop (c.below line name) := by
    intro name
    rw [history_of_perm accepted without same]
    apply List.filter_eq_drop
    intro i a stands
    rw [Bool.not_eq_true', ← Bool.not_eq_true, outdates_iff_lt accepted stands, Nat.not_lt]
  have keeps : ∀ name,
      c.below line name = 0 ∨ c.below line name < (c.history name).length := by
    intro name
    obtain none | bottom := Nat.eq_zero_or_pos (c.below line name)
    · exact Or.inl none
    · obtain ⟨_, _, stands⟩ := exists_of_pos_below accepted bottom
      exact Or.inr (List.getElem?_eq_some_iff.mp stands).1
  refine ⟨?_, ?_, history, keeps⟩
  · intro name
    apply mem_names_of_without accepted without
    rw [history, List.drop_eq_nil_iff, ← List.length_eq_zero_iff]
    obtain none | some := keeps name <;> omega
  · rw [graph_of_accepted accepted, graph_of_accepted without]

/-! ## Other lines -/

/-- A line is spared if its selection is nowhere below what was outdated. -/
theorem spares_iff_le (real : ∀ h ∈ headers, h.id ≠ .nil)
    (isOther : c.IsLineOf failed selected other) : line.Spares headers other ↔
      ∀ name, c.TakesPart failed name → c.below line name ≤ selected name := by
  constructor
  · intro spares name part
    by_contra under
    obtain ⟨_, _, stands⟩ := exists_of_pos_below accepted (Nat.zero_lt_of_lt (Nat.lt_of_not_le under))
    have inside := (List.getElem?_eq_some_iff.mp stands).1
    obtain ⟨h, back⟩ : ∃ h, (c.history name)[selected name]? = some h :=
      ⟨_, List.getElem?_eq_getElem (Nat.lt_trans (Nat.lt_of_not_le under) inside)⟩
    obtain ⟨known, rfl⟩ := (mem_history accepted).mp (List.mem_of_getElem? back)
    have chosen : other.checkpointFor h.owner = some h.id := Option.filter_eq_some_iff.mpr
      ⟨(isOther h.owner h.id).mpr ⟨part, h, back, rfl⟩, by simpa using real h known⟩
    have outdated := (outdates_iff_lt accepted back).mpr (Nat.lt_of_not_le under)
    rw [spares h known chosen] at outdated
    contradiction
  · intro above h known chosen
    obtain ⟨part, h', back, named⟩ :=
      (isOther h.owner h.id).mp (Option.filter_eq_some_iff.mp chosen).1
    have known' := ((mem_history accepted).mp (List.mem_of_getElem? back)).1
    cases (distinct_of_accepted accepted).eq_of_id known' known named
    rw [← Bool.not_eq_true, outdates_iff_lt accepted back]
    exact Nat.not_lt_of_le (above h.owner part)

theorem below_le_selected (isLine : c.IsLineOf failed selected line) (name : String) :
    c.below line name ≤ selected name := by
  obtain none | bottom := Nat.eq_zero_or_pos (c.below line name)
  · rw [none]
    exact Nat.zero_le _
  · obtain ⟨kept, chosen, stands⟩ := exists_of_pos_below accepted bottom
    obtain ⟨_, h, back, named⟩ := (isLine name kept.id).mp (Option.filter_eq_some_iff.mp chosen).1
    rw [← below_eq_of_stands accepted (named ▸ chosen) back]

theorem known_of_recover (recovers : c.recover failed reuse = .ok line) : failed ⊆ c.names := by
  intro name member
  by_contra unknown
  exact (greatest_of_recover accepted recovers).1 name (Or.inr member) (history_of_unknown unknown)

/-- What a failure outdates is not missed by one of fewer instances. -/
theorem spares_of_fewer (real : ∀ h ∈ headers, h.id ≠ .nil) {fewer : List String}
    (contained : fewer ⊆ failed) (recovers : c.recover failed reuse = .ok line)
    (recovers' : c.recover fewer reuse = .ok other) : line.Spares headers other := by
  obtain ⟨_, low, worse, isLine⟩ := greatest_of_recover accepted recovers
  obtain ⟨_, high, better, isOther⟩ := greatest_of_recover accepted recovers'
  rw [spares_iff_le accepted real isOther]
  intro name part
  have consistent := worse.consistent.of_fewer contained (known_of_recover accepted recovers)
  exact Nat.le_trans (below_le_selected accepted isLine name)
    (better.above low consistent name part)

/-- Without what the line outdates, a recovery that goes back to nothing of it ends as before, and
one that goes back to some of it finds no consistent line any more. -/
theorem recover_without_outdated (real : ∀ h ∈ headers, h.id ≠ .nil)
    (same : remaining.Perm (headers.filter fun h => !line.outdates headers h))
    (without : ofHeaders remaining graph = .ok rest)
    (recovers : c.recover failed reuse = .ok other) :
    (line.Spares headers other → rest.recover failed reuse = .ok other) ∧
    (¬ line.Spares headers other →
      ∃ stuck, rest.recover failed reuse = .error (.noConsistentLine stuck)) := by
  obtain ⟨stored, selected, greatest, isOther⟩ := greatest_of_recover accepted recovers
  have drops := drops_of_perm accepted same without
  rw [spares_iff_le accepted real isOther]
  constructor
  · exact drops.recover_eq without stored greatest isOther
  · intro missed
    obtain ⟨name, part, under⟩ := by simpa only [not_forall, exists_prop, Nat.not_le] using missed
    exact drops.recover_eq_error without stored greatest part under

end Accepted

end Chronicle

end Rollback
