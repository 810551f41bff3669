import Mathlib.Algebra.Ring.Nat
import Mathlib.Tactic.ByContra
import Rollback.Proofs.NameMap
import Rollback.Recovery.Search

/-!
# Cursors in motion

The cursors of a search only move down, and the search ends with the first round that moves none
of them (`settle_eq`). So the sum of the positions, by which the search is seen to end, can be
forgotten afterwards.
-/

namespace Rollback

namespace Cursors

/-- The position of the selected candidate of an instance. -/
def position (cursors : Cursors) (name : String) : Nat := cursors[name]?.getD 0

/-- One cursor for each lane. -/
def Covers (cursors : Cursors) (lanes : Lanes) : Prop := ∀ name, name ∈ cursors ↔ name ∈ lanes

variable {cursors next : Cursors} {lanes : Lanes} {name : String}

theorem Covers.insert (covers : cursors.Covers lanes) (known : name ∈ lanes) (position : Nat) :
    Covers (Std.ExtTreeMap.insert cursors name position) lanes := by
  intro other
  rw [Std.ExtTreeMap.mem_insert, Std.LawfulEqCmp.compare_eq_iff_eq, covers other]
  constructor
  · rintro (rfl | member)
    · exact known
    · exact member
  · exact Or.inr

theorem position_insert (cursors : Cursors) (name other : String) (p : Nat) :
    position (Std.ExtTreeMap.insert cursors name p) other =
      if name = other then p else cursors.position other := by
  simp only [position, Std.ExtTreeMap.getElem?_insert, Std.LawfulEqCmp.compare_eq_iff_eq]
  split <;> rfl

/-- Cursors of the same lanes are the same if they stand at the same positions. -/
theorem ext_position (covers : cursors.Covers lanes) (covers' : next.Covers lanes)
    (same : ∀ name, name ∈ lanes → cursors.position name = next.position name) :
    cursors = next := by
  apply Std.ExtTreeMap.ext_getElem?
  intro name
  by_cases known : name ∈ lanes
  · have here := (covers name).mpr known
    have there := (covers' name).mpr known
    have equal := same name known
    simp only [position, getElem?_pos _ _ here, getElem?_pos _ _ there, Option.getD_some] at equal
    rw [getElem?_pos _ _ here, getElem?_pos _ _ there, equal]
  · rw [getElem?_neg _ _ fun member => known ((covers name).mp member),
      getElem?_neg _ _ fun member => known ((covers' name).mp member)]

theorem total_eq (cursors : Cursors) :
    Lanes.total cursors = (cursors.keys.map cursors.position).sum := by
  have values : cursors.keys.map cursors.position = cursors.toList.map (·.2) := by
    rw [← Std.ExtTreeMap.map_fst_toList_eq_keys, List.map_map]
    apply List.map_congr_left
    rintro ⟨name, p⟩ member
    rw [Std.ExtTreeMap.mem_toList_iff_getElem?_eq_some] at member
    simp [position, member]
  rw [values, Lanes.total]
  generalize cursors.toList = entries
  induction entries with
  | nil => rfl
  | cons entry rest ih => simp [ih]

theorem sum_lt_iff {names : List String} {f g : String → Nat}
    (below : ∀ name ∈ names, f name ≤ g name) :
    (names.map f).sum < (names.map g).sum ↔ ∃ name ∈ names, f name < g name := by
  induction names with
  | nil => simp
  | cons name rest ih =>
    have here := below name List.mem_cons_self
    have later := ih fun other member => below other (List.mem_cons_of_mem _ member)
    have bound : (rest.map f).sum ≤ (rest.map g).sum := by
      by_cases strict : ∃ name ∈ rest, f name < g name
      · exact Nat.le_of_lt (later.mpr strict)
      · apply Nat.le_of_eq
        congr 1
        apply List.map_congr_left
        intro other member
        have upper := below other (List.mem_cons_of_mem _ member)
        exact Nat.le_antisymm upper (Nat.le_of_not_lt fun less => strict ⟨other, member, less⟩)
    simp only [List.map_cons, List.sum_cons, List.mem_cons, exists_eq_or_imp]
    rw [← later]
    omega

/-- Among cursors that only went down, the sum tells whether one of them moved. -/
theorem total_lt_iff (covers : cursors.Covers lanes) (covers' : next.Covers lanes)
    (below : ∀ name, name ∈ lanes → next.position name ≤ cursors.position name) :
    Lanes.total next < Lanes.total cursors ↔ next ≠ cursors := by
  have keys : next.keys = cursors.keys :=
    NameMap.keys_congr fun name => (covers' name).trans (covers name).symm
  have below : ∀ name ∈ cursors.keys, next.position name ≤ cursors.position name := by
    intro name member
    exact below name ((covers name).mp (Std.ExtTreeMap.mem_keys.mp member))
  rw [total_eq, total_eq, keys, sum_lt_iff below]
  constructor
  · rintro ⟨name, _, moved⟩ rfl
    exact Nat.lt_irrefl _ moved
  · intro different
    by_contra still
    apply different
    apply ext_position covers' covers
    intro name known
    have member := Std.ExtTreeMap.mem_keys.mpr ((covers name).mpr known)
    exact Nat.le_antisymm (below name member)
      (Nat.le_of_not_lt fun less => still ⟨name, member, less⟩)

end Cursors

namespace Lanes

variable {lanes : Lanes} {cursors next : Cursors} {name : String}

theorem lower_eq_ok_iff : lower lanes cursors name = .ok next ↔
    ∃ position, descend lanes cursors name (cursors.position name) = some position ∧
      next = Std.ExtTreeMap.insert cursors name position := by
  simp only [lower, Cursors.position]
  split <;> rename_i found <;> simp [found, eq_comm]

theorem lower_covers (covers : cursors.Covers lanes) (known : name ∈ lanes)
    (lowered : lower lanes cursors name = .ok next) : next.Covers lanes := by
  obtain ⟨position, _, rfl⟩ := lower_eq_ok_iff.mp lowered
  exact covers.insert known position

theorem lower_le (lowered : lower lanes cursors name = .ok next) (other : String) :
    next.position other ≤ cursors.position other := by
  obtain ⟨position, found, rfl⟩ := lower_eq_ok_iff.mp lowered
  rw [Cursors.position_insert]
  split
  · subst name
    exact (descend_eq_some_iff.mp found).1
  · exact Nat.le_refl _

/-- The instances of a list settled one after the other, as in a round. -/
theorem foldlM_lower {names : List String} (known : ∀ name ∈ names, name ∈ lanes)
    (covers : cursors.Covers lanes) (lowered : names.foldlM (lower lanes) cursors = .ok next) :
    next.Covers lanes ∧ ∀ name, next.position name ≤ cursors.position name := by
  induction names generalizing cursors with
  | nil =>
    cases lowered
    exact ⟨covers, fun _ => Nat.le_refl _⟩
  | cons name rest ih =>
    rw [List.foldlM_cons] at lowered
    cases first : lower lanes cursors name with
    | error e => simp [first, bind, Except.bind] at lowered
    | ok middle =>
      simp only [first, bind, Except.bind] at lowered
      have covers' := lower_covers covers (known name List.mem_cons_self) first
      obtain ⟨covered, below⟩ :=
        ih (fun other member => known other (List.mem_cons_of_mem _ member)) covers' lowered
      exact ⟨covered, fun other => Nat.le_trans (below other) (lower_le first other)⟩

theorem round_covers (covers : cursors.Covers lanes) (rounded : round lanes cursors = .ok next) :
    next.Covers lanes :=
  (foldlM_lower (fun _ => Std.ExtTreeMap.mem_keys.mp) covers rounded).1

theorem round_le (covers : cursors.Covers lanes) (rounded : round lanes cursors = .ok next)
    (name : String) : next.position name ≤ cursors.position name :=
  (foldlM_lower (fun _ => Std.ExtTreeMap.mem_keys.mp) covers rounded).2 name

/-- The search goes on exactly as long as a round moves a cursor. -/
theorem settle_eq (covers : cursors.Covers lanes) :
    settle lanes cursors =
      match round lanes cursors with
      | .error e => .error e
      | .ok next => if next = cursors then .ok next else settle lanes next := by
  rw [settle]
  cases rounded : round lanes cursors with
  | error e => rfl
  | ok next =>
    have moved := Cursors.total_lt_iff covers (round_covers covers rounded)
      fun name _ => round_le covers rounded name
    by_cases same : next = cursors
    · simp [same]
    · simp [same, moved.mpr same]

/-- A number of rounds. -/
def rounds (lanes : Lanes) : Nat → Cursors → Outcome Cursors
  | 0, cursors => .ok cursors
  | n + 1, cursors =>
    match round lanes cursors with
    | .error e => .error e
    | .ok next => rounds lanes n next

theorem settle_of_rounds {n : Nat} {final : Cursors} (covers : cursors.Covers lanes)
    (reached : rounds lanes n cursors = .ok final) (still : round lanes final = .ok final) :
    settle lanes cursors = .ok final := by
  induction n generalizing cursors with
  | zero =>
    cases reached
    rw [settle_eq covers, still]
    simp
  | succ n ih =>
    rw [rounds] at reached
    rw [settle_eq covers]
    cases rounded : round lanes cursors with
    | error e => simp [rounded] at reached
    | ok next =>
      simp only [rounded] at reached
      have later := ih (round_covers covers rounded) reached
      by_cases same : next = cursors
      · subst same
        simp only [if_true]
        rw [settle_eq covers, rounded] at later
        simpa using later
      · simpa [same] using later

theorem line_eq (lanes : Lanes) (cursors : Cursors) : (line lanes cursors).selections =
    lanes.filterMap fun name lane =>
      lane.candidates[cursors.position name]?.bind Candidate.checkpoint? := by
  have listed : (line lanes cursors).selections = Std.ExtTreeMap.ofList
      (lanes.filterMap fun name lane =>
        lane.candidates[cursors.position name]?.bind Candidate.checkpoint?).toList := by
    rw [line, Std.ExtTreeMap.toList_filterMap]
    refine congrArg (fun entries : List (String × CheckpointId) => Std.ExtTreeMap.ofList entries) ?_
    congr 1
    funext entry
    obtain ⟨name, lane⟩ := entry
    simp only [Cursors.position]
    cases lane.candidates[cursors[name]?.getD 0]? with
    | none => rfl
    | some candidate => cases candidate <;> rfl
  rw [listed, NameMap.ofList_toList]

end Lanes

end Rollback
