import Mathlib.Logic.Relation
import Rollback.Proofs.Recovery.Cursors

/-!
# The search in single steps

A search settles a lane in one go. A walk comes to the same in single steps: it looks at one instance
after the other, asks the selected candidate for the first dependency that is not met, and moves its
cursor to the next older candidate. A walk can be seen to go wrong, where a cursor stands on no
candidate or an instance has none; it does not (`Sound`). The maps of dependencies may list their
entries in any order (`next_congr`).
-/

namespace Rollback

/-- How a map of dependencies lists its entries. -/
abbrev Listing := Dependencies → List (String × CheckpointId)

/-- Each entry of each map is listed once, in whatever order. -/
def Listing.Complete (listing : Listing) : Prop := ∀ d, (listing d).Perm d.toList

/-- What the selected candidate of an instance asks for. -/
inductive Look where
  /-- The cursor stands on no candidate. -/
  | outside
  | content
  | unmet (peer : String) (id : CheckpointId)

/-- A search between two of its steps. -/
structure Walk where
  cursors : Cursors
  /-- The instances that this round has still to look at. -/
  ahead : List String
  /-- Whether this round has moved a cursor. -/
  moved : Bool
  rounds : Nat
  /-- How often a cursor was moved so far. -/
  steps : Nat

/-- How a recovery ends. -/
inductive Ending where
  | line (line : Line)
  /-- An instance has no older candidate. -/
  | exhausted (name : String)
  /-- An instance has no checkpoint, so that no walk begins. -/
  | missing (name : String)
  /-- An instance that has to go back takes no part in the walk. -/
  | absent (name : String)
  /-- The cursor of an instance stands on no candidate, for which there is no answer. -/
  | outside (name : String)

def Ending.outcome? : Ending → Option (Outcome Line)
  | .line answer => some (.ok answer)
  | exhausted name => some (.error (.noConsistentLine name))
  | missing name | absent name => some (.error (.missingCheckpoint name))
  | outside _ => none

namespace Lanes

/-- Entries are ordered by their names, and by their ids under the same name. -/
def entryOrder : String × CheckpointId → String × CheckpointId → Ordering :=
  compareLex (compareOn Prod.fst) (compareOn Prod.snd)

def sortEntries (entries : List (String × CheckpointId)) : List (String × CheckpointId) :=
  entries.mergeSort fun a b => (entryOrder a b).isLE

/-- The first dependency of the selected candidate that is not met. -/
def look (lanes : Lanes) (listing : Listing) (cursors : Cursors) (name : String) : Look :=
  match lanes[name]?, cursors[name]? with
  | some lane, some position =>
    match lane.candidates[position]? with
    | none => .outside
    | some candidate =>
      match (sortEntries (listing candidate.dependencies)).find? fun (peer, id) =>
          !(peer = name || id = .nil || meets lanes cursors peer id) with
      | none => .content
      | some (peer, id) => .unmet peer id
  | _, _ => .content

end Lanes

namespace Walk

/-- All instances are ahead of the first round. -/
def first (lanes : Lanes) : Walk := ⟨lanes.start, lanes.keys, false, 1, 0⟩

/-- The next round. -/
def again (lanes : Lanes) (w : Walk) : Walk :=
  { w with ahead := lanes.keys, moved := false, rounds := w.rounds + 1 }

/-- The instance is done with in this round. -/
def pass (w : Walk) (rest : List String) : Walk := { w with ahead := rest }

/-- The cursor of an instance goes down to a position. -/
def back (w : Walk) (name : String) (position : Nat) : Walk :=
  { w with
    cursors := w.cursors.insert name position
    moved := true
    steps := w.steps + 1 }

/-- What comes next in a walk. -/
def next (lanes : Lanes) (listing : Listing) (w : Walk) : Walk ⊕ Ending :=
  match w.ahead with
  | [] => if w.moved then .inl (w.again lanes) else .inr (.line (lanes.line w.cursors))
  | name :: rest =>
    match lanes.look listing w.cursors name with
    | .outside => .inr (.outside name)
    | .content => .inl (w.pass rest)
    | .unmet _ _ =>
      match w.cursors[name]? with
      | none => .inr (.absent name)
      | some 0 => .inr (.exhausted name)
      | some (position + 1) => .inl (w.back name position)

/-- A step of a walk, with the entries of the maps in any order. -/
def Step (lanes : Lanes) (w w' : Walk) : Prop :=
  ∃ listing : Listing, listing.Complete ∧ w.next lanes listing = .inl w'

/-- The end of a walk, with the entries of the maps in any order. -/
def Ends (lanes : Lanes) (w : Walk) (e : Ending) : Prop :=
  ∃ listing : Listing, listing.Complete ∧ w.next lanes listing = .inr e

/-- Any number of steps. -/
abbrev Reaches (lanes : Lanes) : Walk → Walk → Prop := Relation.ReflTransGen (Step lanes)

end Walk

namespace Cursors

variable {cursors : Cursors} {name : String}

theorem getElem?_eq_position (known : name ∈ cursors) :
    cursors[name]? = some (cursors.position name) := by
  rw [position, getElem?_pos _ _ known, Option.getD_some]

theorem insert_position (known : name ∈ cursors) :
    Std.ExtTreeMap.insert cursors name (cursors.position name) = cursors := by
  apply Std.ExtTreeMap.ext_getElem?
  intro other
  simp only [Std.ExtTreeMap.getElem?_insert, Std.LawfulEqCmp.compare_eq_iff_eq]
  split
  · subst other
    exact (getElem?_eq_position known).symm
  · rfl

theorem insert_insert (cursors : Cursors) (name : String) (p q : Nat) :
    Std.ExtTreeMap.insert (Std.ExtTreeMap.insert cursors name p) name q =
      Std.ExtTreeMap.insert cursors name q := by
  apply Std.ExtTreeMap.ext_getElem?
  intro other
  simp only [Std.ExtTreeMap.getElem?_insert]
  split <;> rfl

/-- A cursor that goes down by one takes one from the sum. -/
theorem total_insert {place : Nat} (known : name ∈ cursors)
    (stands : cursors.position name = place + 1) :
    Lanes.total (Std.ExtTreeMap.insert cursors name place) + 1 = Lanes.total cursors := by
  have keys : (Std.ExtTreeMap.insert cursors name place).keys = cursors.keys := by
    refine NameMap.keys_congr fun other => ?_
    rw [Std.ExtTreeMap.mem_insert, Std.LawfulEqCmp.compare_eq_iff_eq]
    exact or_iff_right_of_imp fun same => same ▸ known
  have split := List.perm_cons_erase (Std.ExtTreeMap.mem_keys.mpr known)
  have others : (cursors.keys.erase name).map
        (position (Std.ExtTreeMap.insert cursors name place)) =
      (cursors.keys.erase name).map cursors.position := by
    apply List.map_congr_left
    intro other member
    have different := (Std.ExtTreeMap.nodup_keys.mem_erase_iff.mp member).1
    rw [position_insert, if_neg different.symm]
  rw [total_eq, total_eq, keys, (split.map _).sum_nat, (split.map _).sum_nat, List.map_cons,
    List.map_cons, others, List.sum_cons, List.sum_cons, position_insert, if_pos rfl, stands]
  omega

end Cursors

/-! ## The order of entries -/

namespace Lanes

instance : Std.TransCmp entryOrder :=
  inferInstanceAs (Std.TransCmp (compareLex (compareOn Prod.fst) (compareOn Prod.snd)))

theorem eq_of_entryOrder {a b : String × CheckpointId} (equal : entryOrder a b = .eq) : a = b := by
  obtain ⟨names, ids⟩ := Ordering.then_eq_eq.mp equal
  exact Prod.ext (Std.LawfulEqOrd.eq_of_compare names) (Std.LawfulEqOrd.eq_of_compare ids)

theorem sortEntries_pairwise (entries : List (String × CheckpointId)) :
    (sortEntries entries).Pairwise fun a b => (entryOrder a b).isLE = true := by
  apply List.pairwise_mergeSort
  · intro a b c first second
    exact Std.TransCmp.isLE_trans first second
  · intro a b
    have swapped : entryOrder b a = (entryOrder a b).swap := Std.OrientedCmp.eq_swap
    rw [swapped]
    cases entryOrder a b <;> rfl

theorem sortEntries_congr {entries others : List (String × CheckpointId)}
    (same : entries.Perm others) : sortEntries entries = sortEntries others := by
  have perm : (sortEntries entries).Perm (sortEntries others) :=
    (List.mergeSort_perm _ _).trans (same.trans (List.mergeSort_perm _ _).symm)
  refine perm.eq_of_pairwise ?_ (sortEntries_pairwise entries) (sortEntries_pairwise others)
  intro a b _ _ lower upper
  exact eq_of_entryOrder (Std.OrientedCmp.isLE_antisymm lower upper)

theorem look_congr {lanes : Lanes} {listing listing' : Listing} (complete : listing.Complete)
    (complete' : listing'.Complete) (cursors : Cursors) (name : String) :
    lanes.look listing cursors name = lanes.look listing' cursors name := by
  have sorted : ∀ d, sortEntries (listing d) = sortEntries (listing' d) := fun d =>
    sortEntries_congr ((complete d).trans (complete' d).symm)
  simp only [look, sorted]

/-- An instance looks settled if it is. -/
theorem look_cases {lanes : Lanes} {listing : Listing} (complete : listing.Complete)
    {cursors : Cursors} {name : String} {lane : Lane} (known : lanes[name]? = some lane)
    (inside : cursors.position name < lane.candidates.length) (stands : name ∈ cursors) :
    (lanes.settled cursors name (cursors.position name) = true ∧
      lanes.look listing cursors name = .content) ∨
    (lanes.settled cursors name (cursors.position name) = false ∧
      ∃ peer id, lanes.look listing cursors name = .unmet peer id) := by
  have here := Cursors.getElem?_eq_position stands
  have selected := List.getElem?_eq_getElem inside
  generalize lane.candidates[cursors.position name] = candidate at selected
  have entries : (sortEntries (listing candidate.dependencies)).Perm candidate.dependencies.toList :=
    (List.mergeSort_perm _ _).trans (complete _)
  simp only [look, known, here, selected, settled, Option.bind_some]
  cases found : (sortEntries (listing candidate.dependencies)).find? fun (peer, id) =>
      !(peer = name || id = .nil || meets lanes cursors peer id) with
  | none =>
    refine Or.inl ⟨?_, rfl⟩
    rw [List.find?_eq_none] at found
    rw [List.all_eq_true]
    intro entry member
    simpa only [Bool.not_eq_true, Bool.not_eq_false'] using
      found entry (entries.mem_iff.mpr member)
  | some entry =>
    refine Or.inr ⟨?_, entry.1, entry.2, rfl⟩
    rw [List.all_eq_false]
    exact ⟨entry, entries.mem_iff.mp (List.mem_of_find?_eq_some found),
      by simpa using List.find?_some found⟩

end Lanes

namespace Walk

variable {lanes : Lanes} {listing : Listing} {w w' w'' : Walk} {e e' : Ending}

theorem next_congr {listing' : Listing} (complete : listing.Complete)
    (complete' : listing'.Complete) (w : Walk) : w.next lanes listing = w.next lanes listing' := by
  simp only [next, Lanes.look_congr complete complete']

theorem step_iff (complete : listing.Complete) : Step lanes w w' ↔ w.next lanes listing = .inl w' :=
  ⟨fun ⟨_, other, stepped⟩ => (next_congr complete other w).trans stepped,
    fun stepped => ⟨listing, complete, stepped⟩⟩

theorem ends_iff (complete : listing.Complete) : Ends lanes w e ↔ w.next lanes listing = .inr e :=
  ⟨fun ⟨_, other, ended⟩ => (next_congr complete other w).trans ended,
    fun ended => ⟨listing, complete, ended⟩⟩

theorem complete_toList : Listing.Complete (·.toList) := fun _ => .refl _

/-- There is one way to go on. -/
theorem step_unique : Relator.RightUnique (Step lanes) := by
  intro w w' w'' stepped stepped'
  rw [step_iff complete_toList] at stepped stepped'
  exact Sum.inl.inj (stepped.symm.trans stepped')

theorem Ends.not_step (ended : Ends lanes w e) : ¬Step lanes w w' := by
  rw [ends_iff complete_toList] at ended
  rw [step_iff complete_toList, ended]
  exact Sum.inr_ne_inl

theorem Ends.unique (ended : Ends lanes w e) (ended' : Ends lanes w e') : e = e' := by
  rw [ends_iff complete_toList] at ended ended'
  exact Sum.inr.inj (ended.symm.trans ended')

/-- A walk has one end at most. -/
theorem Reaches.ending_unique (reached : Reaches lanes w w') (ended : Ends lanes w' e)
    (reached' : Reaches lanes w w'') (ended' : Ends lanes w'' e') : e = e' := by
  have stays : ∀ {u v : Walk} {e : Ending}, Ends lanes u e → Reaches lanes u v → u = v := by
    intro u v e ended reached
    obtain same | ⟨_, stepped, _⟩ := Relation.ReflTransGen.cases_head reached
    · exact same
    · exact absurd stepped ended.not_step
  obtain later | later := Relation.ReflTransGen.total_of_right_unique step_unique reached reached'
  · cases stays ended later
    exact ended.unique ended'
  · cases stays ended' later
    exact ended.unique ended'

/-- A walk that can reach an end cannot go on for ever. -/
theorem Reaches.acc (reached : Reaches lanes w w') (ended : Ends lanes w' e) :
    Acc (fun after before => Step lanes before after) w := by
  induction reached using Relation.ReflTransGen.head_induction_on with
  | refl => exact .intro _ fun _ stepped => absurd stepped ended.not_step
  | head stepped _ ih =>
    refine .intro _ fun _ stepped' => ?_
    rwa [step_unique stepped' stepped]

/-! ## Nothing goes wrong -/

/-- Each cursor stands on a candidate of its lane. What the cursors have gone down is the number of
steps, and each round but the first and the present one has moved a cursor. -/
structure Sound (lanes : Lanes) (w : Walk) : Prop where
  covers : w.cursors.Covers lanes
  inside : ∀ name lane, lanes[name]? = some lane →
    w.cursors.position name < lane.candidates.length
  known : ∀ name ∈ w.ahead, name ∈ lanes
  spent : w.steps + Lanes.total w.cursors = Lanes.total lanes.start
  counted : w.rounds + w.moved.toNat ≤ w.steps + 1

/-- What comes next in a sound walk. -/
def advance (lanes : Lanes) (w : Walk) : Walk ⊕ Ending :=
  match w.ahead with
  | [] => if w.moved then .inl (w.again lanes) else .inr (.line (lanes.line w.cursors))
  | name :: rest =>
    if lanes.settled w.cursors name (w.cursors.position name) then .inl (w.pass rest)
    else match w.cursors.position name with
      | 0 => .inr (.exhausted name)
      | position + 1 => .inl (w.back name position)

theorem Sound.next_eq (sound : w.Sound lanes) (complete : listing.Complete) :
    w.next lanes listing = w.advance lanes := by
  unfold next advance
  cases listed : w.ahead with
  | nil => rfl
  | cons name rest =>
    have member : name ∈ lanes := sound.known name (listed ▸ List.mem_cons_self)
    have stands := (sound.covers name).mpr member
    have here := Cursors.getElem?_eq_position stands
    have lane := getElem?_pos lanes name member
    obtain ⟨settled, looked⟩ | ⟨unsettled, _, _, looked⟩ :=
      Lanes.look_cases complete lane (sound.inside _ _ lane) stands
    · simp only [looked, settled, if_true]
    · simp only [looked, unsettled, here, Bool.false_eq_true, if_false]
      cases w.cursors.position name <;> rfl

theorem Sound.step_iff (sound : w.Sound lanes) :
    Step lanes w w' ↔ w.advance lanes = .inl w' := by
  rw [Walk.step_iff complete_toList, sound.next_eq complete_toList]

theorem Sound.ends_iff (sound : w.Sound lanes) : Ends lanes w e ↔ w.advance lanes = .inr e := by
  rw [Walk.ends_iff complete_toList, sound.next_eq complete_toList]

/-- A step begins a round, passes over a settled instance or goes back by one candidate. -/
theorem Sound.step_cases (sound : w.Sound lanes) (stepped : Step lanes w w') :
    (w.ahead = [] ∧ w.moved = true ∧ w' = w.again lanes) ∨
    (∃ name rest, w.ahead = name :: rest ∧ w' = w.pass rest) ∨
    ∃ name rest position, w.ahead = name :: rest ∧ w.cursors.position name = position + 1 ∧
      w' = w.back name position := by
  rw [sound.step_iff, advance] at stepped
  cases listed : w.ahead with
  | nil =>
    simp only [listed] at stepped
    split at stepped
    · exact Or.inl ⟨rfl, ‹_›, (Sum.inl.inj stepped).symm⟩
    · contradiction
  | cons name rest =>
    simp only [listed] at stepped
    split at stepped
    · exact Or.inr (Or.inl ⟨name, rest, rfl, (Sum.inl.inj stepped).symm⟩)
    · split at stepped
      · contradiction
      · exact Or.inr (Or.inr ⟨name, rest, _, rfl, ‹_›, (Sum.inl.inj stepped).symm⟩)

/-- A sound walk ends with a line or for lack of an older candidate. -/
theorem Sound.ends_cases (sound : w.Sound lanes) (ended : Ends lanes w e) :
    e = .line (lanes.line w.cursors) ∨ ∃ name ∈ w.ahead, e = .exhausted name := by
  rw [sound.ends_iff, advance] at ended
  cases listed : w.ahead with
  | nil =>
    simp only [listed] at ended
    split at ended
    · contradiction
    · exact Or.inl (Sum.inr.inj ended).symm
  | cons name rest =>
    simp only [listed] at ended
    split at ended
    · contradiction
    · split at ended
      · exact Or.inr ⟨name, List.mem_cons_self, (Sum.inr.inj ended).symm⟩
      · contradiction

section Steps

variable {name : String} {rest : List String}

theorem Sound.step_again (sound : w.Sound lanes) (listed : w.ahead = [])
    (moved : w.moved = true) : Step lanes w (w.again lanes) := by
  rw [sound.step_iff, advance]
  simp only [listed, moved, if_true]

theorem Sound.ends_line (sound : w.Sound lanes) (listed : w.ahead = []) (still : w.moved = false) :
    Ends lanes w (.line (lanes.line w.cursors)) := by
  rw [sound.ends_iff, advance]
  simp only [listed, still, Bool.false_eq_true, if_false]

theorem Sound.step_pass (sound : w.Sound lanes) (listed : w.ahead = name :: rest)
    (settled : lanes.settled w.cursors name (w.cursors.position name) = true) :
    Step lanes w (w.pass rest) := by
  rw [sound.step_iff, advance]
  simp only [listed, settled, if_true]

theorem Sound.step_back (sound : w.Sound lanes) (listed : w.ahead = name :: rest)
    {position : Nat} (stands : w.cursors.position name = position + 1)
    (unsettled : lanes.settled w.cursors name (position + 1) = false) :
    Step lanes w (w.back name position) := by
  rw [sound.step_iff, advance]
  simp only [listed, stands, unsettled, Bool.false_eq_true, if_false]

theorem Sound.ends_exhausted (sound : w.Sound lanes) (listed : w.ahead = name :: rest)
    (stands : w.cursors.position name = 0)
    (unsettled : lanes.settled w.cursors name 0 = false) : Ends lanes w (.exhausted name) := by
  rw [sound.ends_iff, advance]
  simp only [listed, stands, unsettled, Bool.false_eq_true, if_false]

end Steps

theorem sound_first (filled : ∀ (name : String) lane, lanes[name]? = some lane →
    lane.candidates ≠ []) : (first lanes).Sound lanes where
  covers _ := Std.ExtTreeMap.mem_map
  inside name lane known := by
    have nonempty := List.length_pos_iff.mpr (filled name lane known)
    have stands : lanes.start.position name = lane.top := by
      simp [Cursors.position, Lanes.start, known]
    rw [first, stands, Lane.top]
    omega
  known _ := Std.ExtTreeMap.mem_keys.mp
  spent := Nat.zero_add _
  counted := Nat.le_refl _

theorem Sound.step (sound : w.Sound lanes) (stepped : Step lanes w w') : w'.Sound lanes := by
  obtain ⟨_, moved, rfl⟩ | ⟨name, rest, listed, rfl⟩ | ⟨name, rest, position, listed, stands, rfl⟩ :=
    sound.step_cases stepped
  · have counted := sound.counted
    rw [moved] at counted
    exact ⟨sound.covers, sound.inside, fun _ => Std.ExtTreeMap.mem_keys.mp, sound.spent, counted⟩
  · refine ⟨sound.covers, sound.inside, fun other member => sound.known other ?_, sound.spent,
      sound.counted⟩
    rw [listed]
    exact List.mem_cons_of_mem _ member
  · have member : name ∈ lanes := sound.known name (listed ▸ List.mem_cons_self)
    refine ⟨sound.covers.insert member position, fun other lane known => ?_, sound.known, ?_, ?_⟩
    · have bound := sound.inside other lane known
      simp only [back, Cursors.position_insert]
      split
      · subst other
        omega
      · exact bound
    · have lowered := Cursors.total_insert ((sound.covers name).mpr member) stands
      have spent := sound.spent
      simp only [back]
      omega
    · have counted := sound.counted
      simp only [back, Bool.toNat_true]
      omega

theorem Sound.reaches (sound : w.Sound lanes) (reached : Reaches lanes w w') : w'.Sound lanes := by
  induction reached with
  | refl => exact sound
  | tail _ stepped ih => exact ih.step stepped

end Walk

end Rollback
