import Rollback.Proofs.Network.Basic

/-!
# What a log tells

The checkpoints of an instance are numbered in the order in which it took them. Dependencies know
what an instance has seen if they name, for each message that it consumed, a checkpoint of the
sender that is at least as new as the one that the sender stood on.
-/

namespace Rollback

/-- The checkpoints that an instance took, oldest first. -/
def takenBy (log : List Event) (name : String) : List CheckpointId :=
  log.filterMap fun
    | .took other id => if other = name then some id else none
    | _ => none

variable {log seen : List Event} {name peer : String} {id : CheckpointId} {e : Event}
  {place before : Nat} {d : Dependencies}

@[simp] theorem takenBy_nil : takenBy [] name = [] := rfl

theorem takenBy_append (front back : List Event) (name : String) :
    takenBy (front ++ back) name = takenBy front name ++ takenBy back name :=
  List.filterMap_append

theorem takenBy_took (other : String) (id : CheckpointId) :
    takenBy [.took other id] name = if other = name then [id] else [] := by
  simp only [takenBy, List.filterMap_cons, List.filterMap_nil]
  split <;> simp_all

theorem takenBy_sent (source target : String) : takenBy [.sent source target] name = [] := rfl

theorem takenBy_consumed (source target : String) (place : Nat) :
    takenBy [.consumed source target place] name = [] := rfl

/-- How many checkpoints an instance had taken before a place of the log. -/
def takenUpTo (log : List Event) (place : Nat) (name : String) : Nat :=
  (takenBy (log.take place) name).length

theorem takenUpTo_mono {place later : Nat} (order : place ≤ later) (name : String) :
    takenUpTo log place name ≤ takenUpTo log later name := by
  obtain ⟨more, rfl⟩ := Nat.exists_eq_add_of_le order
  rw [takenUpTo, takenUpTo, List.take_add, takenBy_append, List.length_append]
  exact Nat.le_add_right _ _

theorem takenUpTo_append (inside : place ≤ log.length) (e : Event) (name : String) :
    takenUpTo (log ++ [e]) place name = takenUpTo log place name := by
  rw [takenUpTo, List.take_append_of_le_length inside, takenUpTo]

/-- Each checkpoint has its number. -/
theorem getElem?_takenBy (took : log[before]? = some (.took name id)) :
    (takenBy log name)[takenUpTo log before name]? = some id := by
  obtain ⟨inside, same⟩ := List.getElem?_eq_some_iff.mp took
  have parts : log = log.take before ++ ([.took name id] ++ log.drop (before + 1)) := by
    rw [List.singleton_append, ← same, List.getElem_cons_drop, List.take_append_drop]
  have counted : takenBy log name = takenBy (log.take before) name ++
      (id :: takenBy (log.drop (before + 1)) name) := by
    conv => lhs; rw [parts]
    rw [takenBy_append, takenBy_append, takenBy_took, if_pos rfl, List.singleton_append]
  rw [counted, takenUpTo, List.getElem?_append_right (Nat.le_refl _), Nat.sub_self]
  rfl

theorem getElem?_takenBy_of_take {number : Nat}
    (stands : (takenBy (log.take place) name)[number]? = some id) :
    (takenBy log name)[number]? = some id := by
  have parts : takenBy log name = takenBy (log.take place) name ++ takenBy (log.drop place) name := by
    rw [← takenBy_append, List.take_append_drop]
  rw [parts, List.getElem?_append_left (List.getElem?_eq_some_iff.mp stands).1, stands]

theorem takenUpTo_lt (took : log[before]? = some (.took name id)) {later : Nat}
    (order : before < later) : takenUpTo log before name < takenUpTo log later name := by
  obtain ⟨inside, same⟩ := List.getElem?_eq_some_iff.mp took
  have next : takenUpTo log (before + 1) name = takenUpTo log before name + 1 := by
    rw [takenUpTo, List.take_succ_eq_append_getElem inside, same, takenBy_append, takenBy_took,
      if_pos rfl, List.length_append]
    rfl
  have more : takenUpTo log (before + 1) name ≤ takenUpTo log later name :=
    takenUpTo_mono order name
  omega

/-- A checkpoint is taken once. -/
theorem before_eq_of_took (distinct : (takenBy log name).Nodup) {other : Nat}
    (took : log[before]? = some (.took name id)) (again : log[other]? = some (.took name id)) :
    before = other := by
  have first := getElem?_takenBy took
  have second := getElem?_takenBy again
  have same : takenUpTo log before name = takenUpTo log other name :=
    (List.getElem?_inj (List.getElem?_eq_some_iff.mp first).1 distinct).mp (first.trans second.symm)
  obtain less | equal | more := Nat.lt_trichotomy before other
  · have := takenUpTo_lt took less
    omega
  · exact equal
  · have := takenUpTo_lt again more
    omega

/-- Dependencies of an instance know of its messages that were consumed up to some moment: for each
of them they name a checkpoint of the sender that is as new as the one before the sending. -/
def Knows (log seen : List Event) (name : String) (d : Dependencies) : Prop :=
  ∀ peer place, peer ≠ name → .consumed peer name place ∈ seen →
    ∀ number < takenUpTo log place peer,
      ∃ newer id, number ≤ newer ∧ (takenBy log peer)[newer]? = some id ∧ d[peer]? = some id

/-- Each message was consumed after it was sent. -/
def Causal (log : List Event) : Prop :=
  ∀ (met : Nat) source target place, log[met]? = some (.consumed source target place) →
    place < met

theorem Causal.place_lt (causal : Causal log) {source target : String}
    (member : .consumed source target place ∈ log) : place < log.length := by
  obtain ⟨met, inside, same⟩ := List.mem_iff_getElem.mp member
  exact Nat.lt_trans (causal met source target place (by rw [List.getElem?_eq_getElem inside, same]))
    inside

theorem Causal.append (causal : Causal log)
    (later : ∀ source target place, e = .consumed source target place → place < log.length) :
    Causal (log ++ [e]) := by
  intro met source target place happened
  obtain inside | outside := Nat.lt_or_ge met log.length
  · rw [List.getElem?_append_left inside] at happened
    exact causal met source target place happened
  · rw [List.getElem?_append_right outside, List.getElem?_singleton] at happened
    split at happened
    · exact Nat.lt_of_lt_of_le (later source target place (Option.some.inj happened)) outside
    · contradiction

/-- What happens later does not change what dependencies know. -/
theorem Knows.append (knows : Knows log seen name d)
    (sentBefore : ∀ peer place, .consumed peer name place ∈ seen → place < log.length) (e : Event) :
    Knows (log ++ [e]) seen name d := by
  intro peer place other met number less
  rw [takenUpTo_append (Nat.le_of_lt (sentBefore peer place met))] at less
  obtain ⟨newer, id, order, stands, recorded⟩ := knows peer place other met number less
  refine ⟨newer, id, order, ?_, recorded⟩
  rw [takenBy_append, List.getElem?_append_left (List.getElem?_eq_some_iff.mp stands).1, stands]

theorem Knows.of_seen {more : List Event} (knows : Knows log seen name d)
    (fewer : ∀ peer place, .consumed peer name place ∈ more → .consumed peer name place ∈ seen) :
    Knows log more name d :=
  fun peer place other met => knows peer place other (fewer peer place met)

end Rollback
