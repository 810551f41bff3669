import Rollback.Proofs.Recovery.Cursors

/-!
# Where a search settles

Cursors are stable if each selected candidate has its dependencies met by the others. A dependency
that is met stays met when the peers stand higher, so no step of a search goes below stable cursors
(`settle_keeps`). The cursors on which the search ends are stable themselves (`settle_stable`),
hence the greatest stable ones below its start.
-/

namespace Rollback

namespace Cursors

/-- No cursor stands higher than in the other selection. -/
def Below (low high : Cursors) : Prop := ∀ name, low.position name ≤ high.position name

theorem Below.refl (cursors : Cursors) : cursors.Below cursors := fun _ => Nat.le_refl _

theorem Below.trans {a b c : Cursors} (first : a.Below b) (second : b.Below c) : a.Below c :=
  fun name => Nat.le_trans (first name) (second name)

end Cursors

namespace Lanes

/-- Each selected candidate has its dependencies met. -/
def Stable (lanes : Lanes) (cursors : Cursors) : Prop :=
  ∀ name, name ∈ lanes → settled lanes cursors name (cursors.position name) = true

variable {lanes : Lanes} {low cursors next : Cursors} {name : String}

theorem meets_iff {peer : String} {id : CheckpointId} : meets lanes cursors peer id = true ↔
    ∀ lane position, lanes[peer]? = some lane → lane.position? id = some position →
      position < cursors.position peer := by
  unfold meets Cursors.position
  cases found : lanes[peer]?.bind (·.position? id) with
  | none =>
    simp only [true_iff]
    intro lane position known place
    simp [known, place] at found
  | some position =>
    obtain ⟨lane, known, place⟩ := Option.bind_eq_some_iff.mp found
    simp only [decide_eq_true_eq]
    constructor
    · intro above lane' position' known' place'
      cases Option.some.inj (known.symm.trans known')
      cases Option.some.inj (place.symm.trans place')
      exact above
    · intro all
      exact all lane position known place

theorem meets_mono (below : low.Below cursors) {peer : String} {id : CheckpointId}
    (met : meets lanes low peer id = true) : meets lanes cursors peer id = true := by
  rw [meets_iff] at met ⊢
  intro lane position known place
  exact Nat.lt_of_lt_of_le (met lane position known place) (below peer)

/-- What a settled candidate asks for is met; there is no candidate above the top. -/
theorem settled_iff {position : Nat} : settled lanes cursors name position = true ↔
    ∀ lane candidate, lanes[name]? = some lane → lane.candidates[position]? = some candidate →
      ∀ peer id, candidate.dependencies[peer]? = some id → peer ≠ name → id ≠ .nil →
        meets lanes cursors peer id = true := by
  unfold settled
  cases found : lanes[name]?.bind (·.candidates[position]?) with
  | none =>
    simp only [true_iff]
    intro lane candidate known selected
    simp [known, selected] at found
  | some candidate =>
    obtain ⟨lane, known, selected⟩ := Option.bind_eq_some_iff.mp found
    have listed : ∀ peer id, (peer, id) ∈ candidate.dependencies.toList ↔
        candidate.dependencies[peer]? = some id :=
      fun peer id => Std.ExtTreeMap.mem_toList_iff_getElem?_eq_some
    simp only [List.all_eq_true, Prod.forall, listed, Bool.or_eq_true, decide_eq_true_eq, known,
      Option.some.injEq]
    constructor
    · rintro all _ _ rfl same peer id depends other real
      cases Option.some.inj (selected.symm.trans same)
      obtain (own | none) | met := all peer id depends
      · exact absurd own other
      · exact absurd none real
      · exact met
    · intro all peer id depends
      by_cases own : peer = name
      · exact Or.inl (Or.inl own)
      · by_cases none : id = .nil
        · exact Or.inl (Or.inr none)
        · exact Or.inr (all lane candidate rfl selected peer id depends own none)

theorem settled_mono (below : low.Below cursors) {position : Nat}
    (settles : settled lanes low name position = true) :
    settled lanes cursors name position = true := by
  rw [settled_iff] at settles ⊢
  intro lane candidate known selected peer id depends other real
  exact meets_mono below (settles lane candidate known selected peer id depends other real)

/-! ## No step goes below stable cursors -/

theorem lower_keeps (stable : Stable lanes low) (known : name ∈ lanes)
    (below : low.Below cursors) : ∃ next, lower lanes cursors name = .ok next ∧ low.Below next := by
  have settles := settled_mono below (stable name known)
  cases found : descend lanes cursors name (cursors.position name) with
  | none =>
    have refused := descend_eq_none_iff.mp found _ (below name)
    rw [settles] at refused
    contradiction
  | some position =>
    refine ⟨_, lower_eq_ok_iff.mpr ⟨position, found, rfl⟩, ?_⟩
    intro other
    rw [Cursors.position_insert]
    split
    · subst other
      obtain ⟨_, _, newest⟩ := descend_eq_some_iff.mp found
      by_contra higher
      have refused := newest _ (Nat.lt_of_not_le higher) (below name)
      rw [settles] at refused
      contradiction
    · exact below other

theorem foldlM_lower_keeps (stable : Stable lanes low) {names : List String}
    (known : ∀ name ∈ names, name ∈ lanes) (below : low.Below cursors) :
    ∃ next, names.foldlM (lower lanes) cursors = .ok next ∧ low.Below next := by
  induction names generalizing cursors with
  | nil => exact ⟨cursors, rfl, below⟩
  | cons name rest ih =>
    obtain ⟨middle, lowered, below⟩ := lower_keeps stable (known name List.mem_cons_self) below
    obtain ⟨next, settles, below⟩ :=
      ih (fun other member => known other (List.mem_cons_of_mem _ member)) below
    refine ⟨next, ?_, below⟩
    rw [List.foldlM_cons, lowered]
    exact settles

theorem round_keeps (stable : Stable lanes low) (below : low.Below cursors) :
    ∃ next, round lanes cursors = .ok next ∧ low.Below next :=
  foldlM_lower_keeps stable (fun _ => Std.ExtTreeMap.mem_keys.mp) below

/-- A search that starts above stable cursors ends above them. -/
theorem settle_keeps (stable : Stable lanes low) (below : low.Below cursors) :
    ∃ final, settle lanes cursors = .ok final ∧ low.Below final := by
  fun_induction settle lanes cursors with
  | case1 cursors e failed =>
    obtain ⟨next, rounded, _⟩ := round_keeps stable below
    rw [rounded] at failed
    contradiction
  | case2 cursors next rounded _ ih =>
    obtain ⟨_, same, below⟩ := round_keeps stable below
    cases Except.ok.inj (same.symm.trans rounded)
    exact ih below
  | case3 cursors next rounded _ =>
    obtain ⟨_, same, below⟩ := round_keeps stable below
    cases Except.ok.inj (same.symm.trans rounded)
    exact ⟨next, rfl, below⟩

/-! ## The end of a search -/

theorem settled_of_lower_eq (lowered : lower lanes cursors name = .ok cursors) :
    settled lanes cursors name (cursors.position name) = true := by
  obtain ⟨position, found, same⟩ := lower_eq_ok_iff.mp lowered
  have stands : cursors.position name = position := by
    have moved := congrArg (Cursors.position · name) same
    simpa only [Cursors.position_insert, if_true] using moved
  rw [stands]
  exact (descend_eq_some_iff.mp found).2.1

theorem foldlM_lower_fixed {names : List String} (known : ∀ name ∈ names, name ∈ lanes)
    (covers : cursors.Covers lanes) (fixed : names.foldlM (lower lanes) cursors = .ok cursors) :
    ∀ name ∈ names, settled lanes cursors name (cursors.position name) = true := by
  induction names with
  | nil => intro name member; contradiction
  | cons first rest ih =>
    rw [List.foldlM_cons] at fixed
    cases lowered : lower lanes cursors first with
    | error e => simp [lowered, bind, Except.bind] at fixed
    | ok middle =>
      simp only [lowered, bind, Except.bind] at fixed
      have later : ∀ name ∈ rest, name ∈ lanes :=
        fun name member => known name (List.mem_cons_of_mem _ member)
      have covers' := lower_covers covers (known first List.mem_cons_self) lowered
      have unmoved : middle = cursors := by
        apply Cursors.ext_position covers' covers
        intro name _
        exact Nat.le_antisymm (lower_le lowered name)
          ((foldlM_lower later covers' fixed).2 name)
      subst middle
      intro name member
      obtain rfl | member := List.mem_cons.mp member
      · exact settled_of_lower_eq lowered
      · exact ih later fixed name member

/-- A round that moves no cursor finds all candidates settled. -/
theorem stable_of_round_eq (covers : cursors.Covers lanes)
    (fixed : round lanes cursors = .ok cursors) : Stable lanes cursors :=
  fun name known => foldlM_lower_fixed (fun _ => Std.ExtTreeMap.mem_keys.mp) covers fixed name
    (Std.ExtTreeMap.mem_keys.mpr known)

theorem settle_stable {final : Cursors} (covers : cursors.Covers lanes)
    (settles : settle lanes cursors = .ok final) :
    final.Covers lanes ∧ final.Below cursors ∧ Stable lanes final := by
  fun_induction settle lanes cursors with
  | case1 => contradiction
  | case2 cursors next rounded _ ih =>
    obtain ⟨covered, below, stable⟩ := ih (round_covers covers rounded) settles
    exact ⟨covered, below.trans (round_le covers rounded), stable⟩
  | case3 cursors next rounded still =>
    obtain rfl := Except.ok.inj settles
    have unmoved : next = cursors := by
      by_contra moved
      exact still ((Cursors.total_lt_iff covers (round_covers covers rounded)
        fun name _ => round_le covers rounded name).mpr moved)
    subst unmoved
    exact ⟨covers, Cursors.Below.refl _, stable_of_round_eq covers rounded⟩

theorem foldlM_lower_error {names : List String} {e : Error}
    (failed : names.foldlM (lower lanes) cursors = .error e) :
    ∃ name ∈ names, e = .noConsistentLine name := by
  induction names generalizing cursors with
  | nil => contradiction
  | cons name rest ih =>
    rw [List.foldlM_cons] at failed
    cases lowered : lower lanes cursors name with
    | error cause =>
      simp only [lowered, bind, Except.bind, Except.error.injEq] at failed
      refine ⟨name, List.mem_cons_self, ?_⟩
      rw [← failed]
      unfold lower at lowered
      split at lowered
      · contradiction
      · exact (Except.error.inj lowered).symm
    | ok middle =>
      simp only [lowered, bind, Except.bind] at failed
      obtain ⟨other, member, rfl⟩ := ih failed
      exact ⟨other, List.mem_cons_of_mem _ member, rfl⟩

/-- A search fails in one way only. -/
theorem settle_error {e : Error} (failed : settle lanes cursors = .error e) :
    ∃ name, name ∈ lanes ∧ e = .noConsistentLine name := by
  fun_induction settle lanes cursors with
  | case1 cursors cause rounded =>
    obtain ⟨name, member, rfl⟩ := foldlM_lower_error rounded
    exact ⟨name, Std.ExtTreeMap.mem_keys.mp member, (Except.error.inj failed).symm⟩
  | case2 cursors next _ _ ih => exact ih failed
  | case3 => contradiction

/-! ## Its start -/

theorem start_covers (lanes : Lanes) : (start lanes).Covers lanes :=
  fun _ => Std.ExtTreeMap.mem_map

theorem position_start {lane : Lane} (known : lanes[name]? = some lane) :
    (start lanes).position name = lane.top := by
  simp [Cursors.position, start, known]

theorem position_of_not_mem (covers : cursors.Covers lanes) (unknown : name ∉ lanes) :
    cursors.position name = 0 := by
  rw [Cursors.position, getElem?_neg _ _ fun member => unknown ((covers name).mp member)]
  rfl

end Lanes

end Rollback
