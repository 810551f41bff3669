import Rollback.Proofs.Recovery.Outdating
import Rollback.Proofs.Service.Steps
import Rollback.Proofs.Store.Deleting

/-!
# Collecting garbage

A service that collects garbage after a line deletes exactly those of its own checkpoints that the
line outdates, and forgets them (`collect_eq`). All other checkpoints can be read as before.
-/

namespace Rollback

theorem World.setStore_setStore {ι σ : Type} (w : World ι σ) (id : StoreId) (first second : Store) :
    (w.setStore id first).setStore id second = w.setStore id second := by
  simp only [World.setStore, World.mk.injEq, true_and, and_true]
  funext other
  split <;> rfl

theorem World.stores_setStore {ι σ : Type} (w : World ι σ) (id : StoreId) (store : Store) :
    (w.setStore id store).stores id = store := by
  simp [World.setStore]

/-- Checkpoints have gone from a store, and nothing else has changed. -/
structure Store.Sheds (before after : Store) (found : List Header) (gone : List CheckpointId) :
    Prop where
  keyed : after.Keyed
  listed : ∃ left, after.headers none = .ok left ∧ left.Perm (found.filter (·.id ∉ gone))
  retrieves : ∀ id, id ∉ gone → after.retrieve id = before.retrieve id
  lost : ∀ id ∈ gone, after.retrieve id = .ok none

namespace Service

variable {ι σ : Type} {s : Service ι} {w : World ι σ} {found : List Header} {line : Line} {h : Header}

/-- The own checkpoints that a line outdates, if these are the headers in the store. -/
def garbage (s : Service ι) (found : List Header) (line : Line) : List Header :=
  found.filter fun h => h.owner = s.name && line.outdates found h

theorem mem_garbage : h ∈ s.garbage found line ↔
    h ∈ found ∧ h.owner = s.name ∧ line.outdates found h = true := by
  simp [garbage]

/-- A service without the memory of some checkpoints. -/
def forget (s : Service ι) (gone : List CheckpointId) : Service ι :=
  { s with history := s.history.filter (· ∉ gone) }

theorem forget_forget (s : Service ι) (first rest : List CheckpointId) :
    (s.forget first).forget rest = s.forget (first ++ rest) := by
  simp [forget, List.filter_filter, Bool.and_comm]

theorem getLast?_forget {gone : List CheckpointId} (kept : s.last ∉ gone) :
    (s.forget gone).history.getLast? = s.history.getLast? := by
  rw [last] at kept
  cases top : s.history.getLast? with
  | none =>
    rw [List.getLast?_eq_none_iff] at top
    simp [forget, top]
  | some id =>
    rw [top, Option.getD_some] at kept
    obtain ⟨front, chain⟩ := List.getLast?_eq_some_iff.mp top
    simp [forget, chain, kept]

theorem deleteAll_eq (keyed : (s.store w).Keyed) (listed : (s.store w).headers none = .ok found)
    {gone : List CheckpointId} (distinct : gone.Nodup) (known : ∀ id ∈ gone, ∃ h ∈ found, h.id = id)
    (deleted : Nat) : ∃ store, s.deleteAll w deleted gone =
        (.ok (deleted + gone.length), s.forget gone, w.setStore s.storage store) ∧
      (s.store w).Sheds store found gone := by
  induction gone generalizing s w found deleted with
  | nil =>
    refine ⟨s.store w, ?_, keyed, ⟨found, listed, by simp⟩, fun _ _ => rfl, by simp⟩
    rw [store, World.setStore_self]
    simp [deleteAll, forget]
  | cons id rest ih =>
    obtain ⟨fresh, others⟩ := List.nodup_cons.mp distinct
    obtain ⟨h, member, rfl⟩ := known id List.mem_cons_self
    obtain ⟨next, left, deletes, listed', perm⟩ := keyed.delete_listed listed member
    have here : (s.forget [h.id]).store (w.setStore s.storage next) = next := by
      simp [store, forget, World.setStore]
    have known' : ∀ id ∈ rest, ∃ k ∈ left, k.id = id := by
      intro id later
      obtain ⟨k, among, rfl⟩ := known id (List.mem_cons_of_mem _ later)
      refine ⟨k, perm.mem_iff.mpr (List.mem_filter.mpr ⟨among, ?_⟩), rfl⟩
      rw [decide_eq_true_eq]
      exact fun same => fresh (same ▸ later)
    obtain ⟨store, deletesRest, sheds⟩ := ih (s := s.forget [h.id])
      (w := w.setStore s.storage next) (by rw [here]; exact keyed.delete deletes) (by rwa [here])
      others known' (deleted + 1)
    refine ⟨store, ?_, sheds.keyed, ?_, ?_, ?_⟩
    · have forgets : { s with history := s.history.filter (· ≠ h.id) } = s.forget [h.id] := by
        simp [forget]
      have count : deleted + 1 + rest.length = deleted + (h.id :: rest).length := by
        rw [List.length_cons]
        omega
      simp only [deleteAll, deletes, forgets, Bool.toNat_true, deletesRest, count]
      rw [forget_forget]
      exact congrArg (_, _, ·) (World.setStore_setStore _ _ _ _)
    · obtain ⟨left', listed'', perm'⟩ := sheds.listed
      refine ⟨left', listed'', perm'.trans ((perm.filter _).trans (.of_eq ?_))⟩
      rw [List.filter_filter]
      apply List.filter_congr
      intro k _
      simp [Bool.and_comm]
    · intro other kept
      obtain ⟨different, later⟩ := not_or.mp (List.mem_cons.not.mp kept)
      rw [sheds.retrieves other later, here, Store.retrieve_delete different deletes]
    · intro other gone
      by_cases later : other ∈ rest
      · exact sheds.lost other later
      · obtain rfl : other = h.id := (List.mem_cons.mp gone).resolve_right later
        rw [sheds.retrieves _ later, here, Store.retrieve_deleted deletes]

/-- What is older than the selected checkpoint is garbage. -/
theorem filter_isOlder_eq (distinct : DistinctIds found) {kept : Header} (member : kept ∈ found)
    (own : kept.owner = s.name) (chosen : line.checkpointFor s.name = some kept.id) :
    (found.filter (·.owner = s.name)).filter (·.isOlder kept) = s.garbage found line := by
  rw [List.filter_filter, garbage]
  apply List.filter_congr
  intro h _
  by_cases mine : h.owner = s.name
  · have same : line.outdates found h = h.isOlder kept := by
      rw [Bool.eq_iff_iff, Line.outdates_eq_true_iff, mine]
      constructor
      · rintro ⟨other, known, _, chosen', older⟩
        rw [chosen, Option.some.injEq] at chosen'
        rwa [distinct.eq_of_id member known chosen']
      · exact fun older => ⟨kept, member, own, chosen, older⟩
    simp [mine, same]
  · simp [mine]

theorem garbage_eq_nil (absent : ∀ h ∈ found, h.owner = s.name →
    line.checkpointFor s.name ≠ some h.id) : s.garbage found line = [] := by
  rw [garbage, List.filter_eq_nil_iff]
  intro h _ outdated
  obtain ⟨mine, outdated⟩ := Bool.and_eq_true_iff.mp outdated
  obtain ⟨kept, member, own, chosen, _⟩ := Line.outdates_eq_true_iff.mp outdated
  rw [of_decide_eq_true mine] at own chosen
  exact absent kept member own chosen

theorem collect_eq_deleteAll (listed : (s.store w).headers none = .ok found)
    (distinct : DistinctIds found) (line : Line) :
    s.collect w line = s.deleteAll w 0 ((s.garbage found line).map (·.id)) := by
  cases chosen : line.checkpointFor s.name with
  | none =>
    rw [garbage_eq_nil (by simp [chosen])]
    simp only [collect, chosen, List.map_nil, deleteAll]
  | some keep =>
    have own : (s.store w).headers (some s.name) = .ok (found.filter (·.owner = s.name)) := by
      rw [Store.headers_some, listed]
      rfl
    cases place : (found.filter (·.owner = s.name)).find? (·.id = keep) with
    | none =>
      have absent : ∀ h ∈ found, h.owner = s.name → line.checkpointFor s.name ≠ some h.id := by
        intro h member mine same
        rw [chosen, Option.some.injEq] at same
        exact List.find?_eq_none.mp place h (List.mem_filter.mpr ⟨member, by simpa using mine⟩)
          (by simpa using same.symm)
      rw [garbage_eq_nil absent]
      simp only [collect, chosen, own, place, List.map_nil, deleteAll]
    | some kept =>
      obtain ⟨member, mine⟩ := List.mem_filter.mp (List.mem_of_find?_eq_some place)
      have named : kept.id = keep := by simpa using List.find?_some place
      simp only [collect, chosen, own, place,
        filter_isOlder_eq distinct member (of_decide_eq_true mine) (named ▸ chosen)]

/-- Exactly what the line outdates of the own checkpoints is deleted and forgotten. -/
theorem collect_eq (keyed : (s.store w).Keyed) (listed : (s.store w).headers none = .ok found)
    (line : Line) : ∃ store, s.collect w line =
        (.ok (s.garbage found line).length, s.forget ((s.garbage found line).map (·.id)),
          w.setStore s.storage store) ∧
      (s.store w).Sheds store found ((s.garbage found line).map (·.id)) := by
  have distinct := keyed.distinct listed
  have ids : ((s.garbage found line).map (·.id)).Nodup := distinct.filter _
  have known : ∀ id ∈ (s.garbage found line).map (·.id), ∃ h ∈ found, h.id = id := by
    intro id gone
    obtain ⟨h, inside, rfl⟩ := List.mem_map.mp gone
    exact ⟨h, (mem_garbage.mp inside).1, rfl⟩
  obtain ⟨store, deletes, sheds⟩ := deleteAll_eq (s := s) keyed listed ids known 0
  refine ⟨store, ?_, sheds⟩
  rw [collect_eq_deleteAll listed distinct, deletes, List.length_map, Nat.zero_add]

/-- Without a listing nothing is deleted. -/
theorem collect_of_error {e : Error} (fails : (s.store w).headers none = .error e) (line : Line) :
    ∃ result, s.collect w line = (result, s, w) := by
  cases chosen : line.checkpointFor s.name with
  | none => exact ⟨.ok 0, by simp only [collect, chosen]⟩
  | some keep =>
    have own : (s.store w).headers (some s.name) = .error e := by
      rw [Store.headers_some, fails]
      rfl
    exact ⟨.error e, by simp only [collect, chosen, own]⟩

/-- What is left is all but the garbage. -/
theorem filter_garbage (distinct : DistinctIds found) :
    found.filter (·.id ∉ (s.garbage found line).map (·.id)) =
      found.filter fun h => !(h.owner = s.name && line.outdates found h) := by
  apply List.filter_congr
  intro h member
  have gone : h.id ∈ (s.garbage found line).map (·.id) ↔
      h.owner = s.name ∧ line.outdates found h = true := by
    constructor
    · intro inside
      obtain ⟨k, outdated, same⟩ := List.mem_map.mp inside
      obtain ⟨known, rest⟩ := mem_garbage.mp outdated
      rwa [distinct.eq_of_id known member same] at rest
    · exact fun outdated => List.mem_map_of_mem (mem_garbage.mpr ⟨member, outdated⟩)
  rw [Bool.eq_iff_iff]
  simp [gone]

end Service

end Rollback
