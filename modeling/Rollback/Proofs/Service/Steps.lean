import Rollback.Instant
import Rollback.Proofs.Store.Listing
import Rollback.Service.Checkpointing
import Rollback.Service.Collection

/-!
# What services do

To take a checkpoint either stores it under the fresh id and makes it the newest of the chain, or
changes nothing (`take_cases`). It comes later than those that the service took before, whatever the
clock shows (`Dated`). To restore one makes it the newest of the chain and changes no store
(`restore_cases`). A recovery line is that of the chronicle of all that the store lists.
-/

namespace Rollback

namespace Header

theorem new_eq_ok_iff {id previous : CheckpointId} {owner : String} {createdAt : Instant}
    {peers : Dependencies} {h : Header} : new id owner createdAt previous peers = .ok h ↔
      h = ⟨id, owner, createdAt, peers.insert owner previous⟩ ∧ h.validate = .ok () := by
  simp only [new, bind, Except.bind]
  generalize Header.mk id owner createdAt (peers.insert owner previous) = made
  cases valid : made.validate with
  | error e =>
    simp only [reduceCtorEq, false_iff, not_and]
    rintro rfl accepted
    rw [valid] at accepted
    contradiction
  | ok u =>
    simp only [pure, Except.pure, Except.ok.injEq]
    constructor
    · rintro rfl
      exact ⟨rfl, valid⟩
    · exact fun same => same.1.symm

end Header

theorem World.setStore_self {ι σ : Type} (w : World ι σ) (id : StoreId) :
    w.setStore id (w.stores id) = w := by
  have same : (fun other => if other = id then w.stores id else w.stores other) = w.stores := by
    funext other
    split
    · rename_i here
      rw [here]
    · rfl
  rw [World.setStore, same]

namespace Service

variable {ι σ : Type} {s s' : Service ι} {w w' : World ι σ}

theorem lt_nextTime {before : Instant} (last : s.lastCreated = some before) (now : Instant) :
    compare before (s.nextTime now) = .lt := by
  rw [nextTime, last]
  simp only
  split
  · exact before.lt_tick
  · rename_i passed
    have swapped : compare before now = (compare now before).swap := Std.OrientedCmp.eq_swap
    rw [swapped]
    cases order : compare now before <;> simp_all

theorem getLast?_newest {retained : Nat} (keeps : 0 < retained) (history : List CheckpointId) :
    (newest retained history).getLast? = history.getLast? := by
  rw [newest, List.getLast?_drop]
  split
  · have empty : history = [] := List.length_eq_zero_iff.mp (by omega)
    rw [empty]
    rfl
  · rfl

theorem getLast?_remember (keeps : 0 < s.retained) (id : CheckpointId) (createdAt : Instant) :
    (s.remember id createdAt).history.getLast? = some id := by
  rw [remember, getLast?_newest keeps, List.getLast?_concat]

theorem getLast?_rewound (history : List CheckpointId) (id previous : CheckpointId) :
    (rewound history id previous).getLast? = some id := by
  unfold rewound
  split
  · rename_i position found
    obtain ⟨inside, same, _⟩ := List.findIdx?_eq_some_iff_getElem.mp found
    rw [List.getLast?_take, if_neg (Nat.succ_ne_zero position), Nat.add_sub_cancel,
      List.getElem?_eq_getElem inside, Option.some_or, of_decide_eq_true same]
  · split <;> rfl

/-- A restore never sets the creation time of the newest checkpoint back. -/
theorem isLE_later {before : Option Instant} {t : Instant} (last : before = some t)
    (createdAt : Instant) : ∃ t', later before createdAt = some t' ∧ (compare t t').isLE = true := by
  rw [last, later]
  split
  · rename_i earlier
    exact ⟨createdAt, rfl, by rw [earlier]; rfl⟩
  · exact ⟨t, rfl, by simp [Std.ReflCmp.compare_self]⟩

/-- After a restore no later checkpoint is dated before the restored one. -/
theorem later_isLE (before : Option Instant) (createdAt : Instant) :
    ∃ t, later before createdAt = some t ∧ (compare createdAt t).isLE = true := by
  unfold later
  split
  · rename_i t
    split
    · exact ⟨createdAt, rfl, by simp [Std.ReflCmp.compare_self]⟩
    · rename_i notEarlier
      refine ⟨t, rfl, ?_⟩
      have swapped : compare createdAt t = (compare t createdAt).swap := Std.OrientedCmp.eq_swap
      rw [swapped]
      cases order : compare t createdAt <;> simp_all
  · exact ⟨createdAt, rfl, by simp [Std.ReflCmp.compare_self]⟩

/-- Checkpoints of the service in strict order of time, none of them newer than its last one. -/
structure Dated (s : Service ι) (own : List Header) : Prop where
  ordered : own.Pairwise fun a b => compare a.createdAt b.createdAt = .lt
  recent : ∀ h ∈ own, ∃ t, s.lastCreated = some t ∧ (compare h.createdAt t).isLE = true

namespace Dated

variable {own : List Header}

theorem before_next (dated : s.Dated own) (now : Instant) {h : Header} (member : h ∈ own) :
    compare h.createdAt (s.nextTime now) = .lt := by
  obtain ⟨t, last, before⟩ := dated.recent h member
  exact Std.TransCmp.lt_of_isLE_of_lt before (lt_nextTime last now)

theorem sublist {part : List Header} (dated : s.Dated own) (among : part.Sublist own) :
    s.Dated part :=
  ⟨dated.ordered.sublist among, fun h member => dated.recent h (among.subset member)⟩

theorem remember (dated : s.Dated own) {now : Instant} {h : Header}
    (next : h.createdAt = s.nextTime now) (id : CheckpointId) :
    (s.remember id h.createdAt).Dated (own ++ [h]) := by
  constructor
  · rw [List.pairwise_append]
    refine ⟨dated.ordered, List.pairwise_singleton _ _, ?_⟩
    intro k member k' new
    rw [List.mem_singleton.mp new, next]
    exact dated.before_next now member
  · intro k member
    refine ⟨h.createdAt, rfl, ?_⟩
    obtain member | new := List.mem_append.mp member
    · rw [next, dated.before_next now member]
      rfl
    · rw [List.mem_singleton.mp new]
      simp [Std.ReflCmp.compare_self]

theorem rewind (dated : s.Dated own) (id : CheckpointId) (h : Header) :
    (s.rewind id h).Dated own := by
  constructor
  · exact dated.ordered
  · intro k member
    obtain ⟨t, last, before⟩ := dated.recent k member
    obtain ⟨t', later, notBack⟩ := isLE_later last h.createdAt
    exact ⟨t', later, Std.TransCmp.isLE_trans before notBack⟩

end Dated

variable [Checkpointable σ]

/-- What taking a checkpoint does to the service and to what instances share. -/
theorem take_cases {token : GateId} {fresh : CheckpointId} {now : Instant}
    {result : Outcome CheckpointId} (took : s.take w token fresh now = (result, s', w')) :
    (∃ header snapshots store, result = .ok fresh ∧
      header = ⟨fresh, s.name, s.nextTime now, s.tracker.current.insert s.name s.last⟩ ∧
      (s.store w).put ⟨header, snapshots⟩ = (.ok (), store) ∧
      s' = s.remember fresh header.createdAt ∧ w' = w.setStore s.storage store) ∨
    (∃ e, result = .error e ∧ s' = s ∧ w' = w) := by
  unfold take at took
  split at took
  · cases took
    exact Or.inr ⟨_, rfl, rfl, rfl⟩
  · split at took
    · cases took
      exact Or.inr ⟨_, rfl, rfl, rfl⟩
    · split at took
      · cases took
        exact Or.inr ⟨_, rfl, rfl, rfl⟩
      · rename_i header created
        obtain ⟨same, _⟩ := Header.new_eq_ok_iff.mp created
        split at took
        · rename_i store refused
          cases took
          cases Store.put_error refused
          exact Or.inr ⟨_, rfl, rfl, w.setStore_self _⟩
        · rename_i store stored
          cases took
          exact Or.inl ⟨header, _, store, rfl, same, stored, rfl, rfl⟩

/-- What a restore does to the service; no store changes. -/
theorem restore_cases [DecidableEq ι] {token : GateId} {id : CheckpointId} {result : Outcome Unit}
    (restored : s.restore w token id = (result, s', w')) :
    ((∃ c, result = .ok () ∧ (s.store w).get id = .ok c ∧ c.header.owner = s.name ∧
        s' = s.rewind id c.header) ∨
      (∃ e, result = .error e ∧ s' = s)) ∧ w'.stores = w.stores := by
  unfold restore at restored
  split at restored
  · cases restored
    exact ⟨Or.inr ⟨_, rfl, rfl⟩, rfl⟩
  · split at restored
    · cases restored
      exact ⟨Or.inr ⟨_, rfl, rfl⟩, rfl⟩
    · rename_i c stored
      split at restored
      · cases restored
        exact ⟨Or.inr ⟨_, rfl, rfl⟩, rfl⟩
      · rename_i own
        split at restored
        · cases restored
          exact ⟨Or.inr ⟨_, rfl, rfl⟩, rfl⟩
        · cases restored
          exact ⟨Or.inl ⟨c, rfl, stored, not_not.mp own, rfl⟩, rfl⟩

omit [Checkpointable σ] in
theorem line_eq_ok_iff {failed : List String} {graph : Graph} {line : Line} :
    s.line w failed graph = .ok line ↔ ∃ found c, (s.store w).headers none = .ok found ∧
      Chronicle.ofHeaders found graph = .ok c ∧ c.recover failed = .ok line := by
  unfold Service.line
  cases (s.store w).headers none with
  | error e => simp [bind, Except.bind]
  | ok found =>
    cases accepted : Chronicle.ofHeaders found graph with
    | error e => simp [bind, Except.bind, accepted]
    | ok c => simp [bind, Except.bind, accepted]

end Service

end Rollback
