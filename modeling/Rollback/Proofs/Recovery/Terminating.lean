import Mathlib.Order.WellFounded
import Rollback.Proofs.Names
import Rollback.Proofs.Outcome
import Rollback.Proofs.Recovery.Greatest
import Rollback.Proofs.Recovery.Walk

/-!
# The end of the search

A walk goes through the search that a recovery makes: what settles an instance, a round or all of
them is reached by a number of its steps. So it comes to an end, and the end is what the recovery
answers.
-/

namespace Rollback

namespace Lanes

variable {lanes : Lanes} {cursors : Cursors} {name : String}

theorem meets_insert_self {peer : String} (other : peer ≠ name) (position : Nat)
    (id : CheckpointId) :
    meets lanes (Std.ExtTreeMap.insert cursors name position) peer id =
      meets lanes cursors peer id := by
  simp only [meets, Std.ExtTreeMap.getElem?_insert, Std.LawfulEqCmp.compare_eq_iff_eq,
    if_neg other.symm]

/-- Where an instance stands itself does not matter for what it asks of the others. -/
theorem settled_insert_self (position q : Nat) :
    settled lanes (Std.ExtTreeMap.insert cursors name position) name q =
      settled lanes cursors name q := by
  rw [Bool.eq_iff_iff, settled_iff, settled_iff]
  refine forall₄_congr fun lane candidate known selected => ?_
  refine forall₅_congr fun peer id depends other real => ?_
  rw [meets_insert_self other]

theorem descend_insert_self (position top : Nat) :
    descend lanes (Std.ExtTreeMap.insert cursors name position) name top =
      descend lanes cursors name top := by
  induction top with
  | zero => simp only [descend, settled_insert_self]
  | succ top ih => simp only [descend, settled_insert_self, ih]

/-- Cursors that end as they began have not been lowered at any instance. -/
theorem ne_iff_of_lower {names : List String} {next : Cursors} {position : Nat}
    (covers : cursors.Covers lanes) (here : name ∈ lanes) (others : ∀ other ∈ names, other ∈ lanes)
    (found : descend lanes cursors name (cursors.position name) = some position)
    (later : names.foldlM (lower lanes) (cursors.insert name position) = .ok next) :
    next ≠ cursors ↔ position < cursors.position name ∨ next ≠ cursors.insert name position := by
  have bound := (descend_eq_some_iff.mp found).1
  have below := (foldlM_lower others (covers.insert here position) later).2 name
  rw [Cursors.position_insert, if_pos rfl] at below
  constructor
  · intro different
    by_cases same : position = cursors.position name
    · rw [same, Cursors.insert_position ((covers name).mpr here)]
      exact Or.inr different
    · exact Or.inl (Nat.lt_of_le_of_ne bound same)
  · rintro (lower | different) rfl
    · omega
    · have same : position = next.position name := Nat.le_antisymm bound below
      rw [same, Cursors.insert_position ((covers name).mpr here)] at different
      exact different rfl

end Lanes

namespace Walk

variable {lanes : Lanes} {w : Walk} {name : String} {rest : List String}

theorem position_back (w : Walk) (name : String) (position : Nat) :
    (w.back name position).cursors.position name = position := by
  rw [back, Cursors.position_insert, if_pos rfl]

theorem descend_back (w : Walk) (name : String) (position : Nat) :
    lanes.descend (w.back name position).cursors name
        ((w.back name position).cursors.position name) =
      lanes.descend w.cursors name position := by
  rw [position_back, back, Lanes.descend_insert_self]

/-- A walk has settled an instance on a position, and has moved if the position is a lower one. -/
structure Settles (lanes : Lanes) (w w' : Walk) (name : String) (rest : List String)
    (position : Nat) : Prop where
  reached : Reaches lanes w w'
  cursors : w'.cursors = w.cursors.insert name position
  ahead : w'.ahead = rest
  moved : w'.moved = true ↔ w.moved = true ∨ position < w.cursors.position name

theorem Sound.settles_pass (sound : w.Sound lanes) (listed : w.ahead = name :: rest)
    (settled : lanes.settled w.cursors name (w.cursors.position name) = true) :
    Settles lanes w (w.pass rest) name rest (w.cursors.position name) where
  reached := .single (sound.step_pass listed settled)
  cursors := (Cursors.insert_position
    ((sound.covers name).mpr (sound.known name (listed ▸ List.mem_cons_self)))).symm
  ahead := rfl
  moved := by simp [pass]

/-- A walk goes down to the newest settled candidate of an instance. -/
theorem Sound.exists_settles (sound : w.Sound lanes) (listed : w.ahead = name :: rest)
    {position : Nat}
    (found : lanes.descend w.cursors name (w.cursors.position name) = some position) :
    ∃ w', Settles lanes w w' name rest position := by
  induction top : w.cursors.position name generalizing w with
  | zero =>
    rw [top, Lanes.descend] at found
    split at found
    · rename_i settled
      rw [← top] at settled
      cases found
      exact ⟨_, top ▸ sound.settles_pass listed settled⟩
    · contradiction
  | succ q ih =>
    rw [top, Lanes.descend] at found
    split at found
    · rename_i settled
      rw [← top] at settled
      cases found
      exact ⟨_, top ▸ sound.settles_pass listed settled⟩
    · rename_i unsettled
      have stepped := sound.step_back listed top (Bool.eq_false_iff.mpr unsettled)
      obtain ⟨w', settles⟩ := ih (sound.step stepped) listed ((descend_back w name q).trans found)
        (position_back w name q)
      have bound := (Lanes.descend_eq_some_iff.mp found).1
      refine ⟨w', .head stepped settles.reached, ?_, settles.ahead, ?_⟩
      · rw [settles.cursors, back, Cursors.insert_insert]
      · rw [settles.moved, top]
        simp only [back, true_or, true_iff]
        exact Or.inr (by omega)

/-- Without a settled candidate a walk ends at the oldest one. -/
theorem Sound.exists_exhausted (sound : w.Sound lanes) (listed : w.ahead = name :: rest)
    (none : lanes.descend w.cursors name (w.cursors.position name) = none) :
    ∃ w', Reaches lanes w w' ∧ Ends lanes w' (.exhausted name) := by
  induction top : w.cursors.position name generalizing w with
  | zero =>
    have unsettled := Lanes.descend_eq_none_iff.mp none 0 (Nat.zero_le _)
    exact ⟨w, .refl, sound.ends_exhausted listed top unsettled⟩
  | succ q ih =>
    have unsettled := Lanes.descend_eq_none_iff.mp none
    have stepped := sound.step_back listed top (unsettled _ (Nat.le_of_eq top.symm))
    have lower : lanes.descend w.cursors name q = .none :=
      Lanes.descend_eq_none_iff.mpr fun p below => unsettled p (by omega)
    obtain ⟨w', reached, ended⟩ := ih (sound.step stepped) listed
      ((descend_back w name q).trans lower) (position_back w name q)
    exact ⟨w', .head stepped reached, ended⟩

/-- A walk that gets through the rest of a round has moved if the cursors are other ones then. -/
theorem Sound.exists_round (sound : w.Sound lanes) {names : List String} (listed : w.ahead = names)
    {next : Cursors} (lowered : names.foldlM lanes.lower w.cursors = .ok next) :
    ∃ w', Reaches lanes w w' ∧ w'.cursors = next ∧ w'.ahead = [] ∧
      (w'.moved = true ↔ w.moved = true ∨ next ≠ w.cursors) := by
  induction names generalizing w with
  | nil =>
    cases lowered
    exact ⟨w, .refl, rfl, listed, by simp⟩
  | cons name rest ih =>
    rw [List.foldlM_cons] at lowered
    obtain ⟨middle, first, later⟩ := Outcome.bind_eq_ok_iff.mp lowered
    obtain ⟨position, found, rfl⟩ := Lanes.lower_eq_ok_iff.mp first
    obtain ⟨w', settles⟩ := sound.exists_settles listed found
    have sound' := sound.reaches settles.reached
    rw [← settles.cursors] at later
    obtain ⟨w'', reached, rfl, done, moved⟩ := ih sound' settles.ahead later
    refine ⟨w'', settles.reached.trans reached, rfl, done, ?_⟩
    have known := sound.known name (listed ▸ List.mem_cons_self)
    have behind : ∀ other ∈ rest, other ∈ lanes := fun other member =>
      sound'.known other (settles.ahead.symm ▸ member)
    rw [moved, settles.moved, or_assoc, settles.cursors]
    rw [settles.cursors] at later
    exact or_congr_right (Lanes.ne_iff_of_lower sound.covers known behind found later).symm

/-- A round that fails ends a walk at the instance that it reports. -/
theorem Sound.exists_exhausted_of_round (sound : w.Sound lanes) {names : List String}
    (listed : w.ahead = names) {cause : Error}
    (failed : names.foldlM lanes.lower w.cursors = .error cause) :
    ∃ w' name, Reaches lanes w w' ∧ Ends lanes w' (.exhausted name) ∧
      cause = .noConsistentLine name := by
  induction names generalizing w with
  | nil => contradiction
  | cons name rest ih =>
    rw [List.foldlM_cons] at failed
    cases found : lanes.descend w.cursors name (w.cursors.position name) with
    | none =>
      obtain ⟨w', reached, ended⟩ := sound.exists_exhausted listed found
      have refused : lanes.lower w.cursors name = .error (.noConsistentLine name) := by
        rw [Lanes.lower, ← Cursors.position, found]
      rw [refused] at failed
      exact ⟨w', name, reached, ended, (Except.error.inj failed).symm⟩
    | some position =>
      obtain ⟨w', settles⟩ := sound.exists_settles listed found
      rw [Lanes.lower_eq_ok_iff.mpr ⟨position, found, rfl⟩] at failed
      obtain ⟨w'', name', reached, ended, same⟩ :=
        ih (sound.reaches settles.reached) settles.ahead (settles.cursors ▸ failed)
      exact ⟨w'', name', settles.reached.trans reached, ended, same⟩

/-- A walk at the beginning of a round ends with what the search finds. -/
theorem Sound.exists_ending (sound : w.Sound lanes) (listed : w.ahead = lanes.keys)
    (still : w.moved = false) : ∃ w' e, Reaches lanes w w' ∧ Ends lanes w' e ∧
      e.outcome? = some ((lanes.settle w.cursors).map lanes.line) := by
  induction sum : Lanes.total w.cursors using Nat.strong_induction_on generalizing w with
  | _ sum ih =>
    rw [Lanes.settle_eq sound.covers]
    cases rounded : lanes.round w.cursors with
    | error cause =>
      obtain ⟨w', name, reached, ended, rfl⟩ := sound.exists_exhausted_of_round listed rounded
      exact ⟨w', _, reached, ended, rfl⟩
    | ok next =>
      obtain ⟨w', reached, rfl, done, moved⟩ := sound.exists_round listed rounded
      have sound' := sound.reaches reached
      simp only [still, Bool.false_eq_true, false_or] at moved
      by_cases same : w'.cursors = w.cursors
      · have stopped : w'.moved = false := Bool.eq_false_iff.mpr fun moves => moved.mp moves same
        refine ⟨w', _, reached, sound'.ends_line done stopped, ?_⟩
        simp only [same, if_true]
        rfl
      · have again := sound'.step_again done (moved.mpr same)
        have lower := (Cursors.total_lt_iff sound.covers sound'.covers
          fun name _ => Lanes.round_le sound.covers rounded name).mpr same
        obtain ⟨w'', e, reached', ended, answers⟩ :=
          ih _ (sum ▸ lower) (sound'.step again) rfl rfl rfl
        refine ⟨w'', e, reached.trans (.head again reached'), ended, ?_⟩
        simp only [same, if_false]
        exact answers

end Walk

namespace Chronicle

/-- The walks through which a recovery comes. It sets out if each instance that takes part has a
checkpoint. -/
def Visits (c : Chronicle) (failed : List String) (reuse : Bool) (w : Walk) : Prop :=
  (c.required (NameSet.ofNames failed)).toList.find?
      (fun name => (c.history name).isEmpty) = none ∧
    Walk.Reaches (c.lanes (NameSet.ofNames failed) reuse)
      (.first (c.lanes (NameSet.ofNames failed) reuse)) w

/-- How a recovery ends, with the entries of the maps in any order. -/
inductive Answers (c : Chronicle) (failed : List String) (reuse : Bool) : Ending → Prop where
  | missing {name : String} (first : (c.required (NameSet.ofNames failed)).toList.find?
      (fun name => (c.history name).isEmpty) = some name) : Answers c failed reuse (.missing name)
  | walked {w : Walk} {e : Ending} (visited : c.Visits failed reuse w)
      (ended : Walk.Ends (c.lanes (NameSet.ofNames failed) reuse) w e) : Answers c failed reuse e

/-- A recovery ends, and has this outcome in whatever order the maps list their entries. -/
structure Gives (c : Chronicle) (failed : List String) (reuse : Bool) (outcome : Outcome Line) :
    Prop where
  ends : ∃ e, c.Answers failed reuse e
  only : ∀ e, c.Answers failed reuse e → e.outcome? = some outcome

/-- How far all instances that take part can go back together. -/
def leeway (c : Chronicle) (failed : List String) (reuse : Bool) : Nat :=
  ((c.required (NameSet.ofNames failed)).toList.map fun name =>
    (c.lane (NameSet.ofNames failed) reuse name).candidates.length - 1).sum

variable {c : Chronicle} {failed : List String} {reuse : Bool} {w : Walk}

theorem total_start : Lanes.total (c.lanes (NameSet.ofNames failed) reuse).start =
    c.leeway failed reuse := by
  have keys : (c.lanes (NameSet.ofNames failed) reuse).start.keys =
      (c.required (NameSet.ofNames failed)).toList := by
    refine ((NameMap.enumerates _).eq_iff (NameSet.enumerates _)).mpr fun name => ?_
    rw [Lanes.start_covers, mem_lanes, ← mem_required, Std.ExtTreeSet.mem_toList]
  rw [Cursors.total_eq, keys, leeway]
  congr 1
  apply List.map_congr_left
  intro name member
  exact Lanes.position_start (getElem?_lanes_eq_some_iff.mpr ⟨mem_required.mp member, rfl⟩)

theorem sound_of_stored (stored : ∀ name, c.TakesPart failed name → c.history name ≠ []) :
    (Walk.first (c.lanes (NameSet.ofNames failed) reuse)).Sound
      (c.lanes (NameSet.ofNames failed) reuse) := by
  refine Walk.sound_first fun name lane known => ?_
  obtain ⟨part, rfl⟩ := getElem?_lanes_eq_some_iff.mp known
  simp [Lane.candidates, lane, stored name part]

theorem Visits.sound (visited : c.Visits failed reuse w) :
    w.Sound (c.lanes (NameSet.ofNames failed) reuse) :=
  (sound_of_stored (find?_missing_eq_none_iff.mp visited.1)).reaches visited.2

/-- A recovery that sets out comes to an end, which is its answer. -/
theorem exists_walked (reuse : Bool)
    (stored : ∀ name, c.TakesPart failed name → c.history name ≠ []) :
    ∃ w e, Walk.Reaches (c.lanes (NameSet.ofNames failed) reuse)
        (.first (c.lanes (NameSet.ofNames failed) reuse)) w ∧
      Walk.Ends (c.lanes (NameSet.ofNames failed) reuse) w e ∧
      e.outcome? = some (c.recover failed reuse) := by
  rw [recover_of_stored stored]
  exact (sound_of_stored stored).exists_ending rfl rfl

theorem gives_recover (c : Chronicle) (failed : List String) (reuse : Bool) :
    c.Gives failed reuse (c.recover failed reuse) := by
  constructor
  · cases missing : (c.required (NameSet.ofNames failed)).toList.find?
        (fun name => (c.history name).isEmpty) with
    | some name => exact ⟨_, .missing missing⟩
    | none =>
      obtain ⟨w, e, reached, ended, _⟩ := exists_walked reuse
        (find?_missing_eq_none_iff.mp missing)
      exact ⟨e, .walked ⟨missing, reached⟩ ended⟩
  · rintro e (first | ⟨visited, ended⟩)
    · rw [recover_of_missing first]
      rfl
    · obtain ⟨w, e', reached, ended', same⟩ := exists_walked reuse
        (find?_missing_eq_none_iff.mp visited.1)
      rwa [visited.2.ending_unique ended reached ended']

/-- A walk that a recovery comes through does not go on for ever. -/
theorem Visits.acc (visited : c.Visits failed reuse w) :
    Acc (fun after before => Walk.Step (c.lanes (NameSet.ofNames failed) reuse) before after) w := by
  obtain ⟨missing, reached⟩ := visited
  obtain ⟨w', e, first, ended, _⟩ := exists_walked reuse
    (find?_missing_eq_none_iff.mp missing)
  induction reached with
  | refl => exact first.acc ended
  | tail _ stepped ih => exact ih.inv stepped

/-- Whatever the graph and the dependencies, a recovery ends, and in one way only. No cursor goes
down more often than there are older candidates in its lane, so there are at most as many steps as
these are together, and one round more at most. All the while each cursor stands on a candidate of its
lane; a step that moves one finds it above the oldest candidate and leaves the others alone. -/
theorem recover_terminates (c : Chronicle) (failed : List String) (reuse : Bool) :
    (∀ w, c.Visits failed reuse w →
      w.steps ≤ c.leeway failed reuse ∧ w.rounds ≤ c.leeway failed reuse + 1 ∧
      (∀ name, c.TakesPart failed name → ∃ position, w.cursors[name]? = some position ∧
        position < (c.lane (NameSet.ofNames failed) reuse name).candidates.length) ∧
      ∀ w', Walk.Step (c.lanes (NameSet.ofNames failed) reuse) w w' →
        w'.steps = w.steps ∧ w'.cursors = w.cursors ∨
        w'.steps = w.steps + 1 ∧ ∃ name position, w.cursors[name]? = some (position + 1) ∧
          w'.cursors = w.cursors.insert name position) ∧
    (¬∃ walks : Nat → Walk, (∀ n, c.Visits failed reuse (walks n)) ∧
      ∀ n, Walk.Step (c.lanes (NameSet.ofNames failed) reuse) (walks n) (walks (n + 1))) ∧
    (∀ name, ¬c.Answers failed reuse (.absent name) ∧ ¬c.Answers failed reuse (.outside name)) ∧
    c.Gives failed reuse (c.recover failed reuse) := by
  refine ⟨?_, ?_, ?_, gives_recover c failed reuse⟩
  · intro w visited
    have sound := visited.sound
    have spent := sound.spent
    have counted := sound.counted
    rw [total_start] at spent
    refine ⟨by omega, by omega, fun name part => ?_, fun w' stepped => ?_⟩
    · exact ⟨_, Cursors.getElem?_eq_position ((sound.covers name).mpr (mem_lanes.mpr part)),
        sound.inside name _ (getElem?_lanes_eq_some_iff.mpr ⟨part, rfl⟩)⟩
    · obtain ⟨_, _, rfl⟩ | ⟨_, _, _, rfl⟩ | ⟨name, rest, position, listed, stands, rfl⟩ :=
        sound.step_cases stepped
      · exact Or.inl ⟨rfl, rfl⟩
      · exact Or.inl ⟨rfl, rfl⟩
      · have known := (sound.covers name).mpr (sound.known name (listed ▸ List.mem_cons_self))
        exact Or.inr ⟨rfl, name, position, stands ▸ Cursors.getElem?_eq_position known, rfl⟩
  · rintro ⟨walks, visited, steps⟩
    exact not_acc_iff_exists_descending_chain.mpr ⟨walks, rfl, steps⟩ (visited 0).acc
  · intro name
    constructor
    all_goals
      rintro (_ | ⟨visited, ended⟩)
      obtain same | ⟨_, _, same⟩ := visited.sound.ends_cases ended
      all_goals cases same

/-- An edge in both directions, and one that leads back to its own source. -/
def knot : Graph := ((Graph.empty.addEdge "a" "b").addEdge "b" "a").addEdge "a" "a"

/-- The second checkpoints depend on each other. -/
def knottedHeaders : List Header := [
  ⟨.ofDigit 1, "a", Instant.epoch.tick, (∅ : Dependencies).insert "a" .nil⟩,
  ⟨.ofDigit 2, "b", Instant.epoch.tick, (∅ : Dependencies).insert "b" .nil⟩,
  ⟨.ofDigit 3, "a", Instant.epoch.tick.tick,
    ((∅ : Dependencies).insert "a" (.ofDigit 1)).insert "b" (.ofDigit 4)⟩,
  ⟨.ofDigit 4, "b", Instant.epoch.tick.tick,
    ((∅ : Dependencies).insert "a" (.ofDigit 3)).insert "b" (.ofDigit 2)⟩]

/-- Both instances go back to their first checkpoints, in three steps at most. -/
theorem recover_terminates_knotted : ∃ c w, ofHeaders knottedHeaders knot = .ok c ∧
    c.Visits ["a"] true w ∧ w.steps ≤ 3 ∧ w.rounds ≤ 4 ∧
    Walk.Ends (c.lanes (NameSet.ofNames ["a"]) true) w
      (.line ⟨((∅ : Dependencies).insert "a" (.ofDigit 1)).insert "b" (.ofDigit 2)⟩) := by
  have accepted : ofHeaders knottedHeaders knot =
      .ok (inOrder knottedHeaders knottedHeaders knot) :=
    ofHeaders_eq_inOrder (by decide +kernel) (.refl _) (by decide +kernel)
  have recovers : (inOrder knottedHeaders knottedHeaders knot).recover ["a"] true =
      .ok ⟨((∅ : Dependencies).insert "a" (.ofDigit 1)).insert "b" (.ofDigit 2)⟩ :=
    recover_of_lineWithin (n := 2) (by decide +kernel)
  have most : (inOrder knottedHeaders knottedHeaders knot).leeway ["a"] true = 3 := by
    decide +kernel
  obtain ⟨bounds, -, -, ⟨e, answers⟩, outcome⟩ :=
    recover_terminates (inOrder knottedHeaders knottedHeaders knot) ["a"] true
  have same := outcome e answers
  rw [recovers] at same
  cases answers with
  | missing => contradiction
  | @walked w _ visited ended =>
    obtain ⟨steps, rounds, _⟩ := bounds w visited
    rw [most] at steps rounds
    refine ⟨_, w, accepted, visited, steps, rounds, ?_⟩
    cases e with
    | line line =>
      cases same
      exact ended
    | exhausted | missing | absent | outside => cases same

end Chronicle

end Rollback
