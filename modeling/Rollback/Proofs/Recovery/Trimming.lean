import Rollback.Proofs.Recovery.Settling
import Rollback.Proofs.Recovery.Histories

/-!
# Lanes that are cut off at the bottom

Two searches whose lanes differ only below a floor that no cursor leaves go through the same rounds:
their cursors stand equally high above the floor, and they end with the same line or fail at the same
instance (`settle_agrees`, `line_eq_of_aligned`).
-/

namespace Rollback

/-- Outcomes agree if both fail for the same reason or both have results that belong together. -/
def Outcome.Agree {α β : Type} (related : α → β → Prop) : Outcome α → Outcome β → Prop
  | .ok a, .ok b => related a b
  | .error e, .error e' => e = e'
  | _, _ => False

namespace Lane

/-- Two lanes with the same candidates above what stands at their bottom. Of the bottom of the first
lane the second one has kept a part, and where there is a bottom there is a checkpoint above it. -/
structure Shares (bottom kept : List Header) (whole trimmed : Lane) : Prop where
  subset : ∀ h ∈ kept, h ∈ bottom
  live : whole.live = trimmed.live
  distinct : DistinctIds whole.history
  above : ∃ upper, whole.history = bottom ++ upper ∧ trimmed.history = kept ++ upper ∧
    (upper = [] → bottom = [])

namespace Shares

variable {bottom kept : List Header} {whole trimmed : Lane}

theorem candidate_eq (shares : Shares bottom kept whole trimmed) (r : Nat) :
    whole.candidates[bottom.length + r]? = trimmed.candidates[kept.length + r]? := by
  obtain ⟨upper, here, there, _⟩ := shares.above
  have split : ∀ below : List Header, ∀ live,
      (Lane.mk (below ++ upper) live).candidates[below.length + r]? =
        (Lane.mk upper live).candidates[r]? := by
    intro below live
    simp only [candidates, List.map_append, List.append_assoc]
    rw [List.getElem?_append_right (by simp), List.length_map, Nat.add_sub_cancel_left]
  obtain ⟨history, live⟩ := whole
  obtain ⟨history', live'⟩ := trimmed
  obtain rfl := here
  obtain rfl := there
  obtain rfl := shares.live
  rw [split, split]

/-- The newest candidates stand equally high above the bottom. -/
theorem exists_top (shares : Shares bottom kept whole trimmed) :
    ∃ r, whole.top = bottom.length + r ∧ trimmed.top = kept.length + r := by
  obtain ⟨upper, here, there, stands⟩ := shares.above
  simp only [top, candidates, here, there, shares.live, List.length_append, List.length_map]
  refine ⟨upper.length + trimmed.live.toList.length - 1, ?_⟩
  cases upper with
  | cons h rest => simp only [List.length_cons]; omega
  | nil =>
    obtain rfl := stands rfl
    obtain rfl : kept = [] := List.eq_nil_iff_forall_not_mem.mpr
      fun h member => absurd (shares.subset h member) List.not_mem_nil
    simp

theorem distinct_trimmed (shares : Shares bottom kept whole trimmed) {upper : List Header}
    (here : whole.history = bottom ++ upper) : DistinctIds (bottom ++ upper) :=
  here ▸ shares.distinct

/-- A checkpoint above the bottom stands equally high in both lanes; one that does not stand above
the bottom of one lane does not stand above that of the other. -/
theorem position_lt_iff (shares : Shares bottom kept whole trimmed) (id : CheckpointId) (r : Nat) :
    (∀ position, whole.position? id = some position → position < bottom.length + r) ↔
      ∀ position, trimmed.position? id = some position → position < kept.length + r := by
  obtain ⟨upper, here, there, _⟩ := shares.above
  have distinct := shares.distinct_trimmed here
  have apart : ∀ h ∈ bottom, ∀ k ∈ upper, h.id ≠ k.id := by
    intro h below k above
    rw [DistinctIds, List.map_append, List.nodup_append] at distinct
    exact distinct.2.2 _ (List.mem_map_of_mem below) _ (List.mem_map_of_mem above)
  simp only [position?, here, there, List.findIdx?_append]
  cases inBottom : bottom.findIdx? (·.id = id) with
  | some position =>
    -- below the floor in the first lane, and not above it in the second
    obtain ⟨inside, found, _⟩ := List.findIdx?_eq_some_iff_getElem.mp inBottom
    have notAbove : upper.findIdx? (·.id = id) = none := by
      rw [List.findIdx?_eq_none_iff]
      intro k above
      have different := apart _ (List.getElem_mem inside) k above
      rw [decide_eq_true_eq] at found
      simpa [found] using Ne.symm different
    simp only [notAbove, Option.map_none, Option.or_none, Option.some.injEq]
    constructor
    · intro _ position place
      obtain ⟨inside, _, _⟩ := List.findIdx?_eq_some_iff_getElem.mp place
      omega
    · rintro _ _ rfl
      omega
  | none =>
    have notKept : kept.findIdx? (·.id = id) = none := by
      rw [List.findIdx?_eq_none_iff] at inBottom ⊢
      exact fun h member => inBottom h (shares.subset h member)
    simp only [notKept, Option.none_or, Option.map_eq_some_iff]
    constructor
    · rintro bound _ ⟨position, place, rfl⟩
      have := bound _ ⟨position, place, rfl⟩
      omega
    · rintro bound _ ⟨position, place, rfl⟩
      have := bound _ ⟨position, place, rfl⟩
      omega

end Shares

end Lane

namespace Lanes

/-- The second lanes are the first ones with some checkpoints removed from the bottoms. -/
structure Trims (bottom kept : String → List Header) (whole trimmed : Lanes) : Prop where
  same : ∀ name, name ∈ whole ↔ name ∈ trimmed
  shares : ∀ (name : String) (lane lane' : Lane), whole[name]? = some lane →
    trimmed[name]? = some lane' → lane.Shares (bottom name) (kept name) lane'

/-- Cursors that stand equally high above the bottoms. -/
def Aligned (bottom kept : String → List Header) (lanes : Lanes) (cursors cursors' : Cursors) : Prop :=
  ∀ name, name ∈ lanes → ∃ r, cursors.position name = (bottom name).length + r ∧
    cursors'.position name = (kept name).length + r

/-- No cursor goes below a bottom: what stands directly above it is settled as long as no cursor has
done so. -/
def Floor (bottom : String → List Header) (lanes : Lanes) : Prop :=
  ∀ cursors : Cursors, (∀ name, name ∈ lanes → (bottom name).length ≤ cursors.position name) →
    ∀ name, name ∈ lanes → bottom name ≠ [] →
      settled lanes cursors name (bottom name).length = true

variable {bottom kept : String → List Header} {whole trimmed : Lanes}
  {cursors cursors' : Cursors} {name : String}

theorem Trims.lane_of_mem (trims : Trims bottom kept whole trimmed) (known : name ∈ whole) :
    ∃ lane lane', whole[name]? = some lane ∧ trimmed[name]? = some lane' ∧
      lane.Shares (bottom name) (kept name) lane' := by
  have known' := (trims.same name).mp known
  exact ⟨_, _, getElem?_pos _ _ known, getElem?_pos _ _ known',
    trims.shares name _ _ (getElem?_pos _ _ known) (getElem?_pos _ _ known')⟩

theorem meets_eq (trims : Trims bottom kept whole trimmed)
    (aligned : Aligned bottom kept whole cursors cursors') (peer : String) (id : CheckpointId) :
    meets whole cursors peer id = meets trimmed cursors' peer id := by
  rw [Bool.eq_iff_iff, meets_iff, meets_iff]
  by_cases known : peer ∈ whole
  · obtain ⟨lane, lane', here, there, shares⟩ := trims.lane_of_mem known
    obtain ⟨r, stands, stands'⟩ := aligned peer known
    rw [here, there, stands, stands']
    constructor
    · intro met _ position same
      cases same
      exact (shares.position_lt_iff id r).mp (fun position => met _ position rfl) position
    · intro met _ position same
      cases same
      exact (shares.position_lt_iff id r).mpr (fun position => met _ position rfl) position
  · rw [getElem?_neg _ _ known, getElem?_neg _ _ (mt (trims.same peer).mpr known)]
    simp

theorem settled_eq (trims : Trims bottom kept whole trimmed)
    (aligned : Aligned bottom kept whole cursors cursors') (known : name ∈ whole) (r : Nat) :
    settled whole cursors name ((bottom name).length + r) =
      settled trimmed cursors' name ((kept name).length + r) := by
  obtain ⟨lane, lane', here, there, shares⟩ := trims.lane_of_mem known
  rw [Bool.eq_iff_iff, settled_iff, settled_iff, here, there]
  simp only [Option.some.injEq, meets_eq trims aligned]
  constructor
  · rintro all _ candidate rfl selected
    exact all _ candidate rfl (shares.candidate_eq r ▸ selected)
  · rintro all _ candidate rfl selected
    exact all _ candidate rfl (shares.candidate_eq r ▸ selected)

/-- Both cursors of an instance go down to the same height. -/
theorem descend_agrees (trims : Trims bottom kept whole trimmed) (floor : Floor bottom whole)
    (aligned : Aligned bottom kept whole cursors cursors') (known : name ∈ whole) (r : Nat) :
    ∃ height : Option Nat,
      descend whole cursors name ((bottom name).length + r) =
        height.map ((bottom name).length + ·) ∧
      descend trimmed cursors' name ((kept name).length + r) =
        height.map ((kept name).length + ·) := by
  have stop : ∀ (lanes : Lanes) (cursors : Cursors) top,
      settled lanes cursors name top = true → descend lanes cursors name top = some top := by
    intro lanes cursors top settles
    cases top <;> simp [descend, settles]
  induction r with
  | zero =>
    have same := settled_eq trims aligned known 0
    by_cases settles : settled whole cursors name ((bottom name).length + 0) = true
    · exact ⟨some 0, stop _ _ _ settles, stop _ _ _ (same ▸ settles)⟩
    · have empty : bottom name = [] := by
        by_contra nonempty
        refine settles (floor cursors ?_ name known nonempty)
        intro other known
        obtain ⟨r, stands, _⟩ := aligned other known
        omega
      have empty' : kept name = [] := by
        obtain ⟨lane, lane', _, _, shares⟩ := trims.lane_of_mem known
        exact List.eq_nil_iff_forall_not_mem.mpr fun h member =>
          absurd (empty ▸ shares.subset h member) List.not_mem_nil
      simp only [Bool.not_eq_true, empty, empty', List.length_nil, Nat.add_zero] at settles same ⊢
      exact ⟨none, by simp [descend, settles], by simp [descend, ← same, settles]⟩
  | succ r ih =>
    have same := settled_eq trims aligned known (r + 1)
    by_cases settles : settled whole cursors name ((bottom name).length + (r + 1)) = true
    · exact ⟨some (r + 1), stop _ _ _ settles, stop _ _ _ (same ▸ settles)⟩
    · obtain ⟨height, here, there⟩ := ih
      refine ⟨height, ?_, ?_⟩
      · rw [← here, ← Nat.add_assoc, descend, if_neg (Nat.add_assoc .. ▸ settles)]
      · rw [← there, ← Nat.add_assoc, descend, if_neg (Nat.add_assoc .. ▸ same ▸ settles)]

theorem lower_agrees (trims : Trims bottom kept whole trimmed) (floor : Floor bottom whole)
    (aligned : Aligned bottom kept whole cursors cursors') (known : name ∈ whole) :
    Outcome.Agree (Aligned bottom kept whole) (lower whole cursors name)
      (lower trimmed cursors' name) := by
  obtain ⟨r, stands, stands'⟩ := aligned name known
  obtain ⟨height, here, there⟩ := descend_agrees trims floor aligned known r
  rw [← stands] at here
  rw [← stands'] at there
  simp only [Cursors.position] at here there
  simp only [lower, here, there]
  cases height with
  | none => rfl
  | some height =>
    intro other known
    simp only [Cursors.position_insert]
    split
    · subst other
      exact ⟨height, rfl, rfl⟩
    · exact aligned other known

theorem foldlM_agrees (trims : Trims bottom kept whole trimmed) (floor : Floor bottom whole)
    {names : List String} (known : ∀ name ∈ names, name ∈ whole)
    (aligned : Aligned bottom kept whole cursors cursors') :
    Outcome.Agree (Aligned bottom kept whole) (names.foldlM (lower whole) cursors)
      (names.foldlM (lower trimmed) cursors') := by
  induction names generalizing cursors cursors' with
  | nil => exact aligned
  | cons name rest ih =>
    have agree := lower_agrees trims floor aligned (known name List.mem_cons_self)
    rw [List.foldlM_cons, List.foldlM_cons]
    cases here : lower whole cursors name <;> cases there : lower trimmed cursors' name <;>
      simp only [here, there, Outcome.Agree] at agree
    · subst agree
      rfl
    · exact ih (fun other member => known other (List.mem_cons_of_mem _ member)) agree

theorem round_agrees (trims : Trims bottom kept whole trimmed) (floor : Floor bottom whole)
    (aligned : Aligned bottom kept whole cursors cursors') :
    Outcome.Agree (Aligned bottom kept whole) (round whole cursors) (round trimmed cursors') := by
  rw [round, round, ← NameMap.keys_congr trims.same]
  exact foldlM_agrees trims floor (fun _ => Std.ExtTreeMap.mem_keys.mp) aligned

theorem Aligned.eq_iff {next next' : Cursors} (covers : cursors.Covers whole)
    (covers' : cursors'.Covers whole) (covered : next.Covers whole) (covered' : next'.Covers whole)
    (aligned : Aligned bottom kept whole cursors cursors')
    (moved : Aligned bottom kept whole next next') : next = cursors ↔ next' = cursors' := by
  constructor
  · rintro rfl
    apply Cursors.ext_position covered' covers'
    intro name known
    obtain ⟨r, stands, stands'⟩ := aligned name known
    obtain ⟨q, stood, stood'⟩ := moved name known
    omega
  · rintro rfl
    apply Cursors.ext_position covered covers
    intro name known
    obtain ⟨r, stands, stands'⟩ := aligned name known
    obtain ⟨q, stood, stood'⟩ := moved name known
    omega

/-- Both searches end in the same way. -/
theorem settle_agrees (trims : Trims bottom kept whole trimmed) (floor : Floor bottom whole)
    (covers : cursors.Covers whole) (covers' : cursors'.Covers trimmed)
    (aligned : Aligned bottom kept whole cursors cursors') :
    Outcome.Agree (Aligned bottom kept whole) (settle whole cursors) (settle trimmed cursors') := by
  have transfer : ∀ {cursors : Cursors}, cursors.Covers trimmed → cursors.Covers whole :=
    fun covers name => (covers name).trans (trims.same name).symm
  fun_induction settle whole cursors generalizing cursors' with
  | case1 cursors e rounded =>
    have agree := round_agrees trims floor aligned
    rw [settle_eq covers']
    cases there : round trimmed cursors' <;> simp only [rounded, there, Outcome.Agree] at agree
    subst agree
    rfl
  | case2 cursors next rounded moved ih =>
    have agree := round_agrees trims floor aligned
    have covered := round_covers covers rounded
    rw [settle_eq covers']
    cases there : round trimmed cursors' <;> simp only [rounded, there, Outcome.Agree] at agree
    rename_i next'
    have covered' := round_covers covers' there
    have different : next ≠ cursors := by
      rintro rfl
      exact Nat.lt_irrefl _ moved
    have different' : next' ≠ cursors' := mt (aligned.eq_iff covers (transfer covers') covered
      (transfer covered') agree).mpr different
    simp only [if_neg different']
    exact ih covered covered' agree
  | case3 cursors next rounded still =>
    have agree := round_agrees trims floor aligned
    have covered := round_covers covers rounded
    rw [settle_eq covers']
    cases there : round trimmed cursors' <;> simp only [rounded, there, Outcome.Agree] at agree
    rename_i next'
    have covered' := round_covers covers' there
    have same : next = cursors := by
      by_contra different
      exact still ((Cursors.total_lt_iff covers covered
        fun name _ => round_le covers rounded name).mpr different)
    have same' := (aligned.eq_iff covers (transfer covers') covered (transfer covered') agree).mp same
    simp only [if_pos same']
    exact agree

theorem start_aligned (trims : Trims bottom kept whole trimmed) :
    Aligned bottom kept whole (start whole) (start trimmed) := by
  intro name known
  obtain ⟨lane, lane', here, there, shares⟩ := trims.lane_of_mem known
  rw [position_start here, position_start there]
  exact shares.exists_top

theorem line_eq_of_aligned (trims : Trims bottom kept whole trimmed)
    (aligned : Aligned bottom kept whole cursors cursors') :
    line whole cursors = line trimmed cursors' := by
  suffices same : (line whole cursors).selections = (line trimmed cursors').selections from
    congrArg Line.mk same
  rw [line_eq, line_eq]
  apply Std.ExtTreeMap.ext_getElem?
  intro name
  rw [Std.ExtTreeMap.getElem?_filterMap', Std.ExtTreeMap.getElem?_filterMap']
  by_cases known : name ∈ whole
  · obtain ⟨lane, lane', here, there, shares⟩ := trims.lane_of_mem known
    obtain ⟨r, stands, stands'⟩ := aligned name known
    rw [here, there, Option.bind_some, Option.bind_some, stands, stands', shares.candidate_eq]
  · rw [getElem?_neg _ _ known, getElem?_neg _ _ (mt (trims.same name).mpr known)]
    rfl

end Lanes

end Rollback
