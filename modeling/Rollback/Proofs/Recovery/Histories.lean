import Mathlib.Data.List.Nodup
import Rollback.Proofs.Recovery.Cursors

/-!
# Histories

A chronicle is accepted exactly if its headers are valid and their ids are distinct. Each instance
then has the headers that it owns as its history, in a strict order of age, and a checkpoint has at
most one position in a history.
-/

namespace Rollback

namespace Header

instance : Std.TransCmp age :=
  inferInstanceAs (Std.TransCmp (compareLex (compareOn createdAt) (compareOn id)))

theorem age_eq (a b : Header) :
    a.age b = (compare a.createdAt b.createdAt).then (compare a.id b.id) := rfl

theorem id_eq_of_age {a b : Header} (same : a.age b = .eq) : a.id = b.id := by
  rw [age_eq, Ordering.then_eq_eq] at same
  exact Std.LawfulEqOrd.eq_of_compare same.2

theorem isOlder_iff {a b : Header} : a.isOlder b = true ↔ a.age b = .lt := by
  simp [isOlder]

theorem isOlder_of_createdAt {a b : Header} (earlier : compare a.createdAt b.createdAt = .lt) :
    a.isOlder b = true := by
  rw [isOlder_iff, age_eq, earlier]
  rfl

theorem isOlder_trans {a b c : Header} (first : a.isOlder b = true) (second : b.isOlder c = true) :
    a.isOlder c = true := by
  rw [isOlder_iff] at *
  exact Std.TransCmp.lt_trans first second

theorem not_isOlder_self (a : Header) : a.isOlder a = false := by
  simp [isOlder, Std.ReflCmp.compare_self]

theorem isOlder_asymm {a b : Header} (older : a.isOlder b = true) : b.isOlder a = false := by
  rw [isOlder_iff] at older
  have swapped : b.age a = (a.age b).swap := Std.OrientedCmp.eq_swap
  rw [isOlder, swapped, older]
  rfl

end Header

/-- Ids that name one header each. -/
def DistinctIds (headers : List Header) : Prop := (headers.map (·.id)).Nodup

namespace DistinctIds

variable {headers : List Header}

theorem eq_of_id (distinct : DistinctIds headers) {a b : Header} (here : a ∈ headers)
    (there : b ∈ headers) (same : a.id = b.id) : a = b :=
  List.inj_on_of_nodup_map distinct here there same

theorem filter (distinct : DistinctIds headers) (keep : Header → Bool) :
    DistinctIds (headers.filter keep) :=
  List.Nodup.sublist (List.filter_sublist.map _) distinct

theorem perm {others : List Header} (distinct : DistinctIds headers)
    (same : headers.Perm others) : DistinctIds others :=
  (same.map _).nodup_iff.mp distinct

end DistinctIds

namespace Chronicle

variable {headers : List Header} {graph : Graph} {c : Chronicle} {name : String} {h : Header}

/-! ## Sorted headers -/

theorem sorted_perm (headers : List Header) : (sorted headers).Perm headers :=
  List.mergeSort_perm _ _

/-- From the oldest to the newest, and no two of the same age. -/
theorem sorted_pairwise (distinct : DistinctIds headers) :
    (sorted headers).Pairwise fun a b => a.isOlder b = true := by
  have ordered : (sorted headers).Pairwise fun a b => (a.age b).isLE = true := by
    apply List.pairwise_mergeSort
    · intro a b c first second
      exact Std.TransCmp.isLE_trans first second
    · intro a b
      have swapped : b.age a = (a.age b).swap := Std.OrientedCmp.eq_swap
      rw [swapped]
      cases a.age b <;> rfl
  have different : (sorted headers).Pairwise fun a b => a.id ≠ b.id :=
    List.pairwise_map.mp (distinct.perm (sorted_perm headers).symm)
  refine (ordered.and different).imp ?_
  rintro a b ⟨older, different⟩
  rw [Header.isOlder_iff]
  cases age : a.age b with
  | lt => rfl
  | eq => exact absurd (Header.id_eq_of_age age) different
  | gt => simp [age] at older

/-- A list in strict order of age is the only one with its headers. -/
theorem eq_of_perm_of_pairwise {l₁ l₂ : List Header} (same : l₁.Perm l₂)
    (ordered₁ : l₁.Pairwise fun a b => a.isOlder b = true)
    (ordered₂ : l₂.Pairwise fun a b => a.isOlder b = true) : l₁ = l₂ := by
  refine same.eq_of_pairwise ?_ ordered₁ ordered₂
  intro a b _ _ older newer
  rw [Header.isOlder_asymm older] at newer
  contradiction

/-! ## Accepted headers -/

theorem mem_foldl_owners {all : NameSet} :
    name ∈ headers.foldl (fun all h => all.insert h.owner) all ↔
      name ∈ all ∨ ∃ h ∈ headers, h.owner = name := by
  induction headers generalizing all with
  | nil => simp
  | cons h rest ih =>
    rw [List.foldl_cons, ih]
    simp only [Std.ExtTreeSet.mem_insert, Std.LawfulEqCmp.compare_eq_iff_eq, List.mem_cons]
    grind

theorem mem_instances :
    name ∈ instances headers graph ↔ name ∈ graph.names ∨ ∃ h ∈ headers, h.owner = name :=
  mem_foldl_owners

theorem accept_nil_eq_ok_iff : accept [] headers = .ok () ↔
    (∀ h ∈ headers, h.validate = .ok ()) ∧ DistinctIds headers := by
  simp [accept_eq_ok_iff, DistinctIds]

theorem ofHeaders_eq_ok_iff : ofHeaders headers graph = .ok c ↔
    ((∀ h ∈ headers, h.validate = .ok ()) ∧ DistinctIds headers) ∧
      c = ⟨.ofList ((instances headers graph).toList.map fun name =>
        (name, (sorted headers).filter (·.owner = name))), graph⟩ := by
  rw [← accept_nil_eq_ok_iff]
  unfold ofHeaders
  cases accepted : accept [] headers with
  | error e => simp [bind, Except.bind]
  | ok u => simp [bind, Except.bind, pure, Except.pure, eq_comm]

/-- The chronicle of headers whose order of age is known. -/
def inOrder (headers ordered : List Header) (graph : Graph) : Chronicle :=
  ⟨.ofList ((instances headers graph).toList.map fun name =>
    (name, ordered.filter (·.owner = name))), graph⟩

theorem ofHeaders_eq_inOrder {ordered : List Header} (accepts : accept [] headers = .ok ())
    (same : ordered.Perm headers) (inAge : ordered.Pairwise fun a b => a.isOlder b = true) :
    ofHeaders headers graph = .ok (inOrder headers ordered graph) := by
  have accepts := accept_nil_eq_ok_iff.mp accepts
  have order : sorted headers = ordered :=
    eq_of_perm_of_pairwise ((sorted_perm headers).trans same.symm) (sorted_pairwise accepts.2) inAge
  exact ofHeaders_eq_ok_iff.mpr ⟨accepts, by rw [order, inOrder]⟩

section Accepted

variable (accepted : ofHeaders headers graph = .ok c)

include accepted

theorem valid_of_accepted (member : h ∈ headers) : h.validate = .ok () :=
  (ofHeaders_eq_ok_iff.mp accepted).1.1 h member

theorem distinct_of_accepted : DistinctIds headers := (ofHeaders_eq_ok_iff.mp accepted).1.2

theorem graph_of_accepted : c.graph = graph := by
  rw [(ofHeaders_eq_ok_iff.mp accepted).2]

theorem getElem?_histories (name : String) : c.histories[name]? =
    if name ∈ instances headers graph then some ((sorted headers).filter (·.owner = name))
    else none := by
  rw [(ofHeaders_eq_ok_iff.mp accepted).2]
  have distinct : (instances headers graph).toList.Nodup :=
    Std.ExtTreeSet.distinct_toList.imp fun different => by simpa using different
  simp only [NameMap.getElem?_ofList_map distinct
    fun name => (sorted headers).filter (·.owner = name), Std.ExtTreeSet.mem_toList]

/-- The history of an instance holds the headers that it owns. -/
theorem history_of_accepted (name : String) :
    c.history name = (sorted headers).filter (·.owner = name) := by
  rw [history, getElem?_histories accepted]
  split
  · rfl
  · rename_i unknown
    symm
    rw [Option.getD_none, List.filter_eq_nil_iff]
    intro h member owned
    rw [mem_sorted] at member
    exact unknown (mem_instances.mpr (Or.inr ⟨h, member, by simpa using owned⟩))

theorem mem_history : h ∈ c.history name ↔ h ∈ headers ∧ h.owner = name := by
  simp [history_of_accepted accepted, mem_sorted]

theorem history_eq_nil_iff : c.history name = [] ↔ ∀ h ∈ headers, h.owner ≠ name := by
  rw [List.eq_nil_iff_forall_not_mem]
  simp only [mem_history accepted, not_and]

theorem history_pairwise (name : String) :
    (c.history name).Pairwise fun a b => a.isOlder b = true := by
  rw [history_of_accepted accepted]
  exact (sorted_pairwise (distinct_of_accepted accepted)).filter _

/-- What stands below a position of a history is older than what stands there. -/
theorem isOlder_of_lt {a b : Header} {i j : Nat} (before : i < j)
    (lower : (c.history name)[i]? = some a) (upper : (c.history name)[j]? = some b) :
    a.isOlder b = true := by
  obtain ⟨_, rfl⟩ := List.getElem?_eq_some_iff.mp lower
  obtain ⟨_, rfl⟩ := List.getElem?_eq_some_iff.mp upper
  exact List.pairwise_iff_getElem.mp (history_pairwise accepted name) _ _ _ _ before

/-- Nothing at or below a position of a history is newer than what stands there. -/
theorem not_isOlder_of_le {a b : Header} {i j : Nat} (below : i ≤ j)
    (lower : (c.history name)[i]? = some a) (upper : (c.history name)[j]? = some b) :
    b.isOlder a = false := by
  obtain same | before := Nat.eq_or_lt_of_le below
  · subst same
    cases Option.some.inj (lower.symm.trans upper)
    exact Header.not_isOlder_self _
  · exact Header.isOlder_asymm (isOlder_of_lt accepted before lower upper)

theorem history_distinct (name : String) : DistinctIds (c.history name) := by
  rw [history_of_accepted accepted]
  exact ((distinct_of_accepted accepted).perm (sorted_perm headers).symm).filter _

/-- Headers are accepted without some of the accepted ones. -/
theorem exists_accepted_of_perm {remaining : List Header} {keep : Header → Bool}
    (same : remaining.Perm (headers.filter keep)) :
    ∃ rest, ofHeaders remaining graph = .ok rest := by
  refine ⟨_, ofHeaders_eq_ok_iff.mpr ⟨⟨?_, ?_⟩, rfl⟩⟩
  · intro h member
    exact valid_of_accepted accepted (List.mem_of_mem_filter (same.mem_iff.mp member))
  · exact ((distinct_of_accepted accepted).filter keep).perm same.symm

/-- Then the histories are without these. -/
theorem history_of_perm {rest : Chronicle} {remaining : List Header} {keep : Header → Bool}
    (without : ofHeaders remaining graph = .ok rest) (same : remaining.Perm (headers.filter keep)) :
    rest.history name = (c.history name).filter keep := by
  apply eq_of_perm_of_pairwise _ (history_pairwise without name)
    ((history_pairwise accepted name).filter keep)
  rw [history_of_accepted without, history_of_accepted accepted, List.filter_comm]
  exact ((sorted_perm remaining).trans
    (same.trans ((sorted_perm headers).filter keep).symm)).filter _

theorem mem_names : name ∈ c.names ↔ name ∈ graph.names ∨ ∃ h ∈ headers, h.owner = name := by
  rw [names, Std.ExtTreeMap.mem_keys, ← mem_instances, Std.ExtTreeMap.mem_iff_isSome_getElem?,
    getElem?_histories accepted]
  split <;> simp_all

/-- Together the histories hold each accepted header once. -/
theorem histories_perm : (c.names.flatMap c.history).Perm headers := by
  have once : headers.Nodup := List.Nodup.of_map _ (distinct_of_accepted accepted)
  have distinct : c.names.Nodup := Std.ExtTreeMap.nodup_keys
  have apart : (c.names.flatMap c.history).Nodup := by
    refine List.nodup_flatMap.mpr ⟨fun name _ => ?_, distinct.imp ?_⟩
    · exact List.Nodup.of_map _ (history_distinct accepted name)
    · intro name other different h here there
      have owned := ((mem_history accepted).mp here).2
      exact different (owned.symm.trans ((mem_history accepted).mp there).2)
  rw [List.perm_ext_iff_of_nodup apart once]
  intro h
  simp only [List.mem_flatMap, mem_history accepted]
  constructor
  · rintro ⟨_, _, member, _⟩
    exact member
  · intro member
    exact ⟨h.owner, (mem_names accepted).mpr (Or.inr ⟨h, member, rfl⟩), member, rfl⟩

/-- Whoever takes part still does if its history does not become empty. -/
theorem mem_names_of_without {rest : Chronicle} {remaining : List Header}
    (without : ofHeaders remaining graph = .ok rest)
    (empty : rest.history name = [] ↔ c.history name = []) :
    name ∈ rest.names ↔ name ∈ c.names := by
  rw [history_eq_nil_iff accepted, history_eq_nil_iff without] at empty
  have owned : (∃ h ∈ remaining, h.owner = name) ↔ ∃ h ∈ headers, h.owner = name := by
    simpa only [not_forall, not_not, exists_prop] using not_congr empty
  rw [mem_names accepted, mem_names without, owned]

end Accepted

/-! ## Positions -/

theorem findIdx?_id_eq_some_iff {history : List Header} (distinct : DistinctIds history)
    {id : CheckpointId} {position : Nat} : history.findIdx? (·.id = id) = some position ↔
      ∃ h, history[position]? = some h ∧ h.id = id := by
  rw [List.findIdx?_eq_some_iff_getElem]
  constructor
  · rintro ⟨inside, found, _⟩
    exact ⟨history[position], List.getElem?_eq_getElem inside, by simpa using found⟩
  · rintro ⟨h, here, rfl⟩
    obtain ⟨inside, rfl⟩ := List.getElem?_eq_some_iff.mp here
    refine ⟨inside, by simp, ?_⟩
    intro other before
    have different := List.pairwise_iff_getElem.mp (List.pairwise_map.mp distinct) other position
      (Nat.lt_trans before inside) inside before
    simpa using different

end Chronicle

end Rollback
