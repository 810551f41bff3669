import Rollback.Proofs.Network.Archive

/-!
# Messages on their way

What an instance sends to another is consumed in the order of sending, and each message carries the
newest checkpoint that its sender had taken before.
-/

namespace Rollback

namespace Network

variable {ι σ : Type} {n next : Network ι σ} {graph : Graph} {storage : StoreId}
  {headers : List Header}

theorem forall_setChannel {P : String → String → List Parcel → Prop} {source target : String}
    {parcels : List Parcel} (changed : P source target parcels)
    (kept : ∀ a b, P a b (n.channels a b)) (a b : String) :
    P a b ((n.setChannel source target parcels).channels a b) := by
  simp only [setChannel]
  split
  · rename_i here
    rw [here.1, here.2]
    exact changed
  · exact kept a b

/-- Messages run along edges and are consumed in the order of sending. A message that is on its way
carries the newest checkpoint that its sender had taken before. -/
structure Orderly (graph : Graph) (n : Network ι σ) : Prop where
  causal : Causal n.log
  edges : ∀ source target, .sent source target ∈ n.log → (⟨source, target⟩ : Edge) ∈ graph.edges
  waiting : ∀ source target, ∀ parcel ∈ n.channels source target, parcel.place < n.log.length ∧
    parcel.tag = (takenBy (n.log.take parcel.place) source).getLast?.map DependencyTag.mk
  inOrder : ∀ source target, (n.channels source target).Pairwise (·.place < ·.place)
  consumedFirst : ∀ source target place, .consumed source target place ∈ n.log →
    ∀ parcel ∈ n.channels source target, place < parcel.place

namespace Orderly

theorem start {world : World ι σ} (gates : String → GateId) (registries : String → Registry ι)
    (retained : String → Nat) :
    Orderly graph (Network.start world storage gates registries retained) := by
  constructor <;> simp [Network.start, Causal]

theorem waiting_append (orderly : Orderly graph n) (e : Event) (source target : String)
    (parcel : Parcel) (waits : parcel ∈ n.channels source target) :
    parcel.place < (n.log ++ [e]).length ∧ parcel.tag =
      (takenBy ((n.log ++ [e]).take parcel.place) source).getLast?.map DependencyTag.mk := by
  obtain ⟨inside, tagged⟩ := orderly.waiting source target parcel waits
  rw [List.take_append_of_le_length (Nat.le_of_lt inside), List.length_append]
  exact ⟨Nat.lt_add_right _ inside, tagged⟩

/-- Another event, and no message that was not on its way before. -/
theorem note (orderly : Orderly graph n) {e : Event}
    (log : next.log = n.log ++ [e])
    (fewer : ∀ source target, (next.channels source target).Sublist (n.channels source target))
    (later : ∀ source target place, e = .consumed source target place → place < n.log.length ∧
      ∀ parcel ∈ next.channels source target, place < parcel.place)
    (along : ∀ source target, e = .sent source target → (⟨source, target⟩ : Edge) ∈ graph.edges) :
    Orderly graph next := by
  constructor
  case causal =>
    rw [log]
    exact orderly.causal.append fun source target place same => (later source target place same).1
  case edges =>
    intro source target member
    rw [log, List.mem_append, List.mem_singleton] at member
    obtain member | same := member
    · exact orderly.edges source target member
    · exact along source target same.symm
  case waiting =>
    intro source target parcel member
    rw [log]
    exact orderly.waiting_append e source target parcel ((fewer _ _).subset member)
  case inOrder => exact fun source target => (orderly.inOrder source target).sublist (fewer _ _)
  case consumedFirst =>
    intro source target place member parcel waits
    rw [log, List.mem_append, List.mem_singleton] at member
    obtain member | same := member
    · exact orderly.consumedFirst source target place member parcel ((fewer _ _).subset waits)
    · exact (later source target place same.symm).2 parcel waits

theorem send (orderly : Orderly graph n) (archive : Archive storage headers n)
    (source target : String) : Orderly graph (n.send graph source target) := by
  unfold Network.send
  split
  · rename_i along
    constructor
    case causal => exact orderly.causal.append (by simp)
    case edges =>
      intro a b member
      simp only [Network.note, setChannel, List.mem_append, List.mem_singleton] at member
      obtain member | same := member
      · exact orderly.edges a b member
      · cases same
        exact along
    case waiting =>
      refine forall_setChannel (P := fun a b parcels => ∀ parcel ∈ parcels,
        parcel.place < (n.log ++ [Event.sent source target]).length ∧ parcel.tag =
          (takenBy ((n.log ++ [Event.sent source target]).take parcel.place) a).getLast?.map
            DependencyTag.mk) ?_ (orderly.waiting_append _)
      intro parcel member
      obtain member | fresh := List.mem_append.mp member
      · exact orderly.waiting_append _ source target parcel member
      · rw [List.mem_singleton.mp fresh, List.take_left, ← archive.last source]
        exact ⟨by simp, rfl⟩
    case inOrder =>
      refine forall_setChannel (P := fun _ _ parcels => parcels.Pairwise (·.place < ·.place)) ?_
        orderly.inOrder
      rw [List.pairwise_append]
      refine ⟨orderly.inOrder source target, List.pairwise_singleton _ _, ?_⟩
      intro parcel member fresh same
      rw [List.mem_singleton.mp same]
      exact (orderly.waiting source target parcel member).1
    case consumedFirst =>
      intro a b place member
      have member : .consumed a b place ∈ n.log := by
        simpa [Network.note, setChannel] using member
      refine forall_setChannel (P := fun a b parcels => .consumed a b place ∈ n.log →
        ∀ parcel ∈ parcels, place < parcel.place) ?_
        (fun a b => orderly.consumedFirst a b place) a b member
      intro member parcel waits
      obtain waits | fresh := List.mem_append.mp waits
      · exact orderly.consumedFirst source target place member parcel waits
      · rw [List.mem_singleton.mp fresh]
        exact orderly.causal.place_lt member
  · exact orderly

theorem consume (orderly : Orderly graph n) (source target : String) :
    Orderly graph (n.consume source target) := by
  unfold Network.consume
  cases waits : n.channels source target with
  | nil => exact orderly
  | cons parcel rest =>
    have inOrder := orderly.inOrder source target
    rw [waits, List.pairwise_cons] at inOrder
    have inside := (orderly.waiting source target parcel (by simp [waits])).1
    refine orderly.note rfl ?_ ?_ (by simp)
    · refine forall_setChannel (P := fun a b parcels => parcels.Sublist (n.channels a b)) ?_
        fun a b => .refl _
      rw [waits]
      exact List.sublist_cons_self _ _
    · rintro a b place ⟨⟩
      refine ⟨inside, ?_⟩
      intro other member
      simp only [Network.note, setChannel, and_self, if_true] at member
      exact inOrder.1 other member

theorem take [Checkpointable σ] (orderly : Orderly graph n) (name : String) (token : GateId)
    (fresh : CheckpointId) (now : Instant) : Orderly graph (n.take name token fresh now) := by
  obtain ⟨id, s, world, _, same⟩ | same := n.take_cases name token fresh now
  · rw [same]
    exact orderly.note rfl (fun _ _ => .refl _) (by simp) (by simp)
  · rw [same]
    exact orderly

end Orderly

end Network

end Rollback
