import Rollback.Proofs.Service.Lineage

/-!
# The checkpoint before the last one

A service answers from memory which checkpoint comes before the last one. If what the last one
follows is still stored, that is the answer, unless the service has just gone back to the oldest
checkpoint that it remembered: then it remembers no other one. Otherwise it remembers none there, or
one that has gone as well (`secondLast_of_succession`).
-/

namespace Rollback

namespace Service

variable {ι : Type} {s : Service ι} {own heads : List Header} {stored stored' : CheckpointId → Prop}
  {tip : Header}

/-- To go back to the oldest checkpoint leaves nothing else to remember. -/
theorem rewound_of_head {history : List CheckpointId} {id : CheckpointId}
    (oldest : history.head? = some id) (previous : CheckpointId) :
    rewound history id previous = [id] := by
  obtain ⟨rest, rfl⟩ := List.head?_eq_some_iff.mp oldest
  simp [rewound, List.findIdx?_cons]

/-- If nothing else is remembered after a restore, there was nothing before it. -/
theorem head_of_rewound {history : List CheckpointId} {id previous : CheckpointId}
    (alone : rewound history id previous = [id]) :
    previous = .nil ∨ history.head? = some id := by
  unfold rewound at alone
  split at alone
  · right
    rename_i position found
    obtain ⟨inside, _, _⟩ := List.findIdx?_eq_some_iff_getElem.mp found
    cases history with
    | nil => cases inside
    | cons first rest =>
      rw [List.take_succ_cons] at alone
      rw [List.head?_cons, (List.cons.inj alone).1]
  · left
    split at alone
    · assumption
    · cases alone

namespace Remembers

/-- The headers end in that of the last checkpoint. -/
theorem exists_front (remembers : s.Remembers own heads stored) (distinct : DistinctIds own)
    (known : tip ∈ own) (real : tip.id ≠ .nil) (top : tip.id = s.last) :
    ∃ front, heads = front ++ [tip] := by
  obtain rfl | ⟨front, t, rfl⟩ := List.eq_nil_or_concat' heads
  · rw [last, ← remembers.getLast?_heads] at top
    exact absurd top real
  · rw [last, ← remembers.getLast?_heads, List.getLast?_concat] at top
    obtain rfl := distinct.eq_of_id known (remembers.known List.mem_concat_self) top
    exact ⟨front, rfl⟩

/-- If a collection leaves one checkpoint to remember, it was the only one before, or what it
follows has gone. -/
theorem alone_of_forget (remembers : s.Remembers own heads stored) (distinct : DistinctIds own)
    {gone : List CheckpointId} (swept : Swept own stored stored' gone) (known : tip ∈ own)
    (here : stored' tip.id) (alone : (s.forget gone).history = [tip.id]) :
    s.history = [tip.id] ∨ ¬ stored' tip.previous := by
  have kept : ∀ h ∈ heads, h.id ∉ gone → h = tip := by
    intro h member spared
    have left : h.id ∈ (s.forget gone).history := by
      rw [Service.forget, ← remembers.ids]
      exact List.mem_filter.mpr ⟨List.mem_map_of_mem member, by simpa using spared⟩
    rw [alone, List.mem_singleton] at left
    exact distinct.eq_of_id (remembers.known member) known left
  have member : tip ∈ heads := by
    have left : tip.id ∈ (s.forget gone).history := by simp [alone]
    have before : tip.id ∈ heads.map (·.id) := remembers.ids ▸ List.mem_of_mem_filter left
    obtain ⟨h, member, same⟩ := List.mem_map.mp before
    rwa [← distinct.eq_of_id (remembers.known member) known same]
  obtain rfl | ⟨front, t, rfl⟩ := List.eq_nil_or_concat' heads
  · cases member
  obtain ⟨-, -, ordered⟩ := List.pairwise_append.mp remembers.dated.ordered
  -- If the last one were deleted, so would be the one that is left: it would be older.
  have spared : t.id ∉ gone := by
    intro deleted
    obtain older | rfl := List.mem_append.mp member |>.imp_right List.mem_singleton.mp
    · obtain ⟨k, known', same, before⟩ := swept.older t.id deleted
      obtain rfl := distinct.eq_of_id known' (remembers.known List.mem_concat_self) same
      have earlier := ordered tip older k List.mem_cons_self
      exact swept.lost _ here (before tip known (swept.fewer _ here) earlier)
    · exact swept.lost _ here deleted
  obtain rfl := kept t List.mem_concat_self spared
  obtain rfl | ⟨front, a, rfl⟩ := List.eq_nil_or_concat' front
  · exact Or.inl remembers.ids.symm
  · right
    have deleted : a.id ∈ gone := by
      by_contra spared
      have earlier := ordered a List.mem_concat_self t List.mem_cons_self
      rw [kept a (by simp) spared] at earlier
      simp [Std.ReflCmp.compare_self] at earlier
    obtain direct | ⟨_, gone', _⟩ := remembers.follows
    · exact fun has => swept.lost _ has (direct ▸ deleted)
    · exact mt (swept.fewer _) gone'

end Remembers

end Service

namespace Session

variable {ι σ : Type} {n : Session ι σ} {name : String} {retained : Nat} {own : List Header}
  {turns : List (Turn ι σ)} {last : Turn ι σ} {id : CheckpointId}

section Succession

variable [Checkpointable σ] [DecidableEq ι]

/-- The last deed was to go back to a checkpoint, which was the oldest that was remembered. -/
inductive BackAtOldest (n : Session ι σ) (id : CheckpointId) : List (Turn ι σ) → Prop where
  | goes {turns : List (Turn ι σ)} {token : GateId}
      (oldest : (n.succession turns).service.history.head? = some id)
      (back : (n.succession (turns ++ [.tend (.act (.restore token id))])).log =
        (n.succession turns).log ++ [.restored id]) :
      BackAtOldest n id (turns ++ [.tend (.act (.restore token id))])
  | stays {turns : List (Turn ι σ)} {last : Turn ι σ} (back : BackAtOldest n id turns)
      (idle : (n.succession (turns ++ [last])).log = (n.succession turns).log) :
      BackAtOldest n id (turns ++ [last])

theorem backAtOldest_concat (back : BackAtOldest n id (turns ++ [last])) :
    (∃ token, last = .tend (.act (.restore token id)) ∧
      (n.succession turns).service.history.head? = some id ∧
      (n.succession (turns ++ [last])).log = (n.succession turns).log ++ [.restored id]) ∨
    BackAtOldest n id turns ∧ (n.succession (turns ++ [last])).log = (n.succession turns).log := by
  generalize same : turns ++ [last] = all at back
  cases back with
  | goes oldest back =>
    obtain ⟨rfl, rest⟩ := List.append_inj' same rfl
    obtain rfl := List.singleton_inj.mp rest
    exact Or.inl ⟨_, rfl, oldest, back⟩
  | stays back idle =>
    obtain ⟨rfl, rest⟩ := List.append_inj' same rfl
    obtain rfl := List.singleton_inj.mp rest
    exact Or.inr ⟨back, idle⟩

/-- A service that remembers one checkpoint only, though there is one before it, has just gone back
to it, and it was the oldest. -/
structure Recalls (name : String) (n : Session ι σ) (turns : List (Turn ι σ)) : Prop where
  alone : ∀ tip, (n.succession turns).store.Holds tip → tip.owner = name →
    (n.succession turns).service.history = [tip.id] →
    (n.succession turns).store.Has name tip.previous → BackAtOldest n tip.id turns
  fewer : ∀ id, BackAtOldest n id turns → (n.succession turns).service.history.length ≤ 1

namespace Recalls

/-- Nothing was taken or restored, and nothing came back. -/
theorem stay (recalls : Recalls name n turns)
    (log : (n.succession (turns ++ [last])).log = (n.succession turns).log)
    (shorter : (n.succession (turns ++ [last])).service.history.length ≤
      (n.succession turns).service.history.length)
    (alone : ∀ tip, (n.succession (turns ++ [last])).store.Holds tip → tip.owner = name →
      (n.succession (turns ++ [last])).service.history = [tip.id] →
      (n.succession (turns ++ [last])).store.Has name tip.previous →
      (n.succession turns).store.Holds tip ∧ (n.succession turns).service.history = [tip.id] ∧
      (n.succession turns).store.Has name tip.previous) : Recalls name n (turns ++ [last]) := by
  constructor
  · intro tip holds mine only has
    obtain ⟨holds, only, has⟩ := alone tip holds mine only has
    exact .stays (recalls.alone tip holds mine only has) log
  · intro id back
    obtain ⟨_, _, _, moved⟩ | ⟨back, _⟩ := backAtOldest_concat back
    · rw [log] at moved
      simp at moved
    · exact shorter.trans (recalls.fewer id back)

/-- A new checkpoint has nothing before it only if nothing was remembered. -/
theorem took (lineage : Lineage name retained own (n.succession turns)) {token : GateId}
    {fresh : CheckpointId} {now : Instant} {c : Checkpoint}
    (next : Lineage name retained (own ++ [c.header])
      (n.succession (turns ++ [.tend (.act (.take token fresh now))])))
    (made : c.header = (n.succession turns).service.nextHeader fresh now)
    (service : (n.succession (turns ++ [.tend (.act (.take token fresh now))])).service =
      (n.succession turns).service.remember fresh c.header.createdAt)
    (log : (n.succession (turns ++ [.tend (.act (.take token fresh now))])).log =
      (n.succession turns).log ++ [.took fresh]) :
    Recalls name n (turns ++ [.tend (.act (.take token fresh now))]) := by
  have atLeast := lineage.two_le
  constructor
  · intro tip holds mine only has
    exfalso
    have top : tip.id = fresh := by
      have last := Service.getLast?_remember (Nat.zero_lt_two.trans_le atLeast) fresh
        c.header.createdAt
      rw [← service, only] at last
      exact Option.some.inj last
    obtain rfl := next.roll.distinct.eq_of_id (next.roll.only.mem holds mine)
      List.mem_concat_self (top.trans (congrArg Header.id made).symm)
    have empty : (n.succession turns).service.history = [] := by
      have length := congrArg List.length only
      rw [service, Service.remember, Service.newest] at length
      simp only [List.length_drop, List.length_append, List.length_singleton] at length
      exact List.length_eq_zero_iff.mp (by omega)
    rw [made, Service.previous_nextHeader, Service.last, empty] at has
    exact next.not_has_nil has
  · intro other back
    obtain ⟨_, taken, _⟩ | ⟨_, same⟩ := backAtOldest_concat back
    · cases taken
    · rw [log] at same
      simp at same

theorem restored (lineage : Lineage name retained own (n.succession turns)) {token : GateId}
    {id : CheckpointId} {c : Checkpoint}
    (read : (n.succession turns).store.retrieve id = .ok (some c))
    (owned : c.header.owner = (n.succession turns).service.name)
    (store : (n.succession (turns ++ [.tend (.act (.restore token id))])).store =
      (n.succession turns).store)
    (service : (n.succession (turns ++ [.tend (.act (.restore token id))])).service =
      (n.succession turns).service.rewind id c.header)
    (log : (n.succession (turns ++ [.tend (.act (.restore token id))])).log =
      (n.succession turns).log ++ [.restored id]) :
    Recalls name n (turns ++ [.tend (.act (.restore token id))]) := by
  obtain ⟨known, named⟩ := lineage.roll.only.read read (owned.trans lineage.named)
  constructor
  · intro tip holds mine only has
    rw [store] at holds has
    rw [service] at only
    have only : Service.rewound (n.succession turns).service.history id c.header.previous =
        [tip.id] := only
    have top : tip.id = id := by
      have last := Service.getLast?_rewound (n.succession turns).service.history id
        c.header.previous
      rw [only] at last
      exact Option.some.inj last
    obtain rfl := lineage.roll.distinct.eq_of_id (lineage.roll.only.mem holds mine) known
      (top.trans named.symm)
    rw [top] at only ⊢
    obtain first | oldest := Service.head_of_rewound only
    · rw [first] at has
      exact absurd has lineage.not_has_nil
    · exact .goes oldest log
  · intro other back
    obtain ⟨_, same, oldest, _⟩ | ⟨_, same⟩ := backAtOldest_concat back
    · cases same
      rw [service, Service.rewind, Service.rewound_of_head oldest]
      exact Nat.le_refl 1
    · rw [log] at same
      simp at same

theorem concat (recalls : Recalls name n turns)
    (lineage : Lineage name retained own (n.succession turns))
    (passage : Passage (n.succession turns) last (n.succession (turns ++ [last])))
    (fresh : ∀ id, last.fresh? = some id → id ≠ .nil ∧ ∀ a ∈ own, a.id ≠ id)
    (others : ∀ c, last = .tend (.act (.put c)) → c.header.owner ≠ name) :
    Recalls name n (turns ++ [last]) := by
  cases passage with
  | idle _ _ history _ store log =>
    refine recalls.stay log (by rw [history]) ?_
    rw [history, store]
    exact fun tip holds _ only has => ⟨holds, only, has⟩
  | @took _ id _ _ c made stored service log =>
    obtain ⟨real, unused⟩ := fresh id rfl
    exact took lineage (lineage.took made stored service real unused) made service log
  | restored read owned store service log => exact restored lineage read owned store service log
  | @put c _ stored service log =>
    refine recalls.stay log (by rw [service]) ?_
    rw [service]
    intro tip holds mine only has
    have other := others c rfl
    obtain rfl | held := Store.holds_put stored holds
    · exact absurd mine other
    · exact ⟨held, only, (Store.has_put stored has).resolve_left fun own => other own.1⟩
  | collected sweeps service log =>
    have roll := lineage.roll
    have within := sweeps.within
    rw [lineage.named] at sweeps
    obtain ⟨heads, remembers⟩ := lineage.remembers
    refine recalls.stay log (by rw [service]; exact List.length_filter_le _ _) ?_
    rw [service]
    intro tip holds mine only has
    have held := within.holds holds
    obtain only | gone := remembers.alone_of_forget roll.distinct (roll.swept sweeps)
      (roll.only.mem held mine) ⟨tip, holds, mine, rfl⟩ only
    · exact ⟨held, only, within.has has⟩
    · exact absurd has gone
  | thinned old within service log =>
    refine recalls.stay log (by rw [service]) ?_
    rw [service]
    exact fun tip holds _ only has => ⟨within.holds holds, only, within.has has⟩
  | cleared within service log =>
    refine recalls.stay log (by rw [service]; exact Nat.zero_le _) ?_
    rw [service]
    intro tip _ _ only
    cases only
  | succeeded service store log =>
    refine recalls.stay log (by rw [service]; exact Nat.zero_le _) ?_
    rw [service]
    intro tip _ _ only
    cases only

end Recalls

theorem recalls_of_succession {world : World ι σ} {storage : StoreId}
    (lacks : (world.stores storage).Lacks name) (gate : GateId) (retained : Nat)
    (proper : Turn.Proper name turns) :
    Recalls name (start world name storage gate retained) turns := by
  induction turns using List.reverseRecOn with
  | nil =>
    constructor
    · intro tip _ _ only
      cases only
    · exact fun _ _ => Nat.zero_le 1
  | append_singleton turns last ih =>
    obtain ⟨proper, fresh, others⟩ := proper.of_concat
    obtain ⟨own, lineage, origin⟩ := exists_lineage lacks gate retained proper
    have passage := turn_passage lineage.hasOnly last
    rw [← succession_concat] at passage
    exact (ih proper).concat lineage passage (fun id given =>
      (fresh id given).imp_right fun unused a known => unused _ (origin a known).1) others

/-- If the service stands on a stored checkpoint, and what that one follows is stored, the service
tells just that as the one before, unless it has just gone back to the oldest that it remembered.
If what it follows has gone, the service tells none, or one that has gone as well. -/
theorem secondLast_of_succession {world : World ι σ} {storage : StoreId}
    (lacks : (world.stores storage).Lacks name) (gate : GateId) (retained : Nat)
    (proper : Turn.Proper name turns)
    (runs : (start world name storage gate retained).succession turns = n) {tip : Header}
    (holds : n.store.Holds tip) (mine : tip.owner = name) (top : tip.id = n.service.last) :
    (n.store.Has name tip.previous →
      n.service.secondLast = tip.previous ∧
        ¬ BackAtOldest (start world name storage gate retained) tip.id turns ∨
      n.service.secondLast = .nil ∧
        BackAtOldest (start world name storage gate retained) tip.id turns) ∧
    (¬ n.store.Has name tip.previous →
      n.service.secondLast = .nil ∨
      tip.previous ≠ .nil ∧ ¬ n.store.Has name n.service.secondLast) := by
  obtain ⟨own, lineage, _⟩ := exists_lineage lacks gate retained proper
  obtain ⟨alone, fewer⟩ := recalls_of_succession lacks gate retained proper
  rw [runs] at lineage alone
  simp only [runs] at fewer
  obtain ⟨heads, remembers⟩ := lineage.remembers
  have roll := lineage.roll
  have known := roll.only.mem holds mine
  obtain ⟨front, rfl⟩ := remembers.exists_front roll.distinct known (roll.real tip known) top
  have history := remembers.ids
  obtain rfl | ⟨front, a, rfl⟩ := List.eq_nil_or_concat' front
  · have second : n.service.secondLast = .nil := by
      rw [Service.secondLast, ← history]
      rfl
    exact ⟨fun has => Or.inr ⟨second, alone tip holds mine history.symm has⟩,
      fun _ => Or.inl second⟩
  · have second : n.service.secondLast = a.id := by
      rw [Service.secondLast, ← history]
      simp
    have notBack : ¬ BackAtOldest (start world name storage gate retained) tip.id turns := by
      intro back
      have few := fewer tip.id back
      rw [← history] at few
      simp at few
    rw [second]
    obtain direct | ⟨real, gone, lost⟩ := remembers.follows
    · have real : a.id ≠ .nil := roll.real a (remembers.known (by simp))
      exact ⟨fun _ => Or.inl ⟨direct.symm, notBack⟩, fun gone => Or.inr
        ⟨direct ▸ real, direct ▸ gone⟩⟩
    · exact ⟨fun has => absurd has gone, fun _ => Or.inr ⟨real, lost⟩⟩

end Succession

/-! ## What a sink remembers -/

theorem secondLast_of_succession_replaced :
    secondHeader.id = replaced.service.last ∧ replaced.store.Has "sink" secondHeader.previous ∧
    replaced.service.secondLast = secondHeader.previous ∧
    ¬ BackAtOldest (start .initial "sink" 0 0 16) secondHeader.id replacingRun := by
  obtain ⟨listed, history, -⟩ := replaced_eq
  have first : replaced.store.Holds firstHeader := (Store.mem_headers listed).mp (by simp)
  have second : replaced.store.Holds secondHeader := (Store.mem_headers listed).mp (by simp)
  have follows : secondHeader.previous = firstHeader.id := by decide +kernel
  have top : secondHeader.id = replaced.service.last := by
    rw [Service.last, history]
    rfl
  have has : replaced.store.Has "sink" secondHeader.previous := ⟨_, first, rfl, follows.symm⟩
  refine ⟨top, has, ?_⟩
  obtain told | ⟨none, _⟩ := (secondLast_of_succession (n := replaced)
    (Store.lacks_empty .compact "sink") 0 16 replacingRun_proper rfl second rfl top).1 has
  · exact told
  · rw [Service.secondLast, history] at none
    exact absurd none (by decide)

/-- The service tells what its last checkpoint follows if that is stored, and none if it is not. -/
def TellsPrevious (name : String) (n : Session ι σ) : Prop :=
  ∀ tip, n.store.Holds tip → tip.owner = name → tip.id = n.service.last →
    (n.store.Has name tip.previous → n.service.secondLast = tip.previous) ∧
    (¬ n.store.Has name tip.previous → n.service.secondLast = .nil)

/-- The first checkpoint is collected, and a new service goes back to the second one. -/
def collectingRun : List (Turn Empty Cell) := [
  .tend (.act (.take 0 (.ofDigit 1) Instant.epoch.tick)),
  .tend (.act (.take 0 (.ofDigit 2) Instant.epoch.tick)),
  .tend (.collect (backTo (.ofDigit 2))),
  .succeed 0 16,
  .tend (.act (.restore 0 (.ofDigit 2)))]

/-- A service that remembers two checkpoints has taken three and goes back to the second one. -/
def forgettingRun : List (Turn Empty Cell) := [
  .succeed 0 2,
  .tend (.act (.take 0 (.ofDigit 1) Instant.epoch.tick)),
  .tend (.act (.take 0 (.ofDigit 2) Instant.epoch.tick)),
  .tend (.act (.take 0 (.ofDigit 3) Instant.epoch.tick)),
  .tend (.act (.restore 0 (.ofDigit 2)))]

def collecting : Session Empty Cell := (start .initial "sink" 0 0 16).succession collectingRun

def forgetting : Session Empty Cell := (start .initial "sink" 0 0 16).succession forgettingRun

def takenHeader : Header where
  id := .ofDigit 2
  owner := "sink"
  createdAt := Instant.epoch.tick.tick
  dependencies := (∅ : Dependencies).insert "sink" (.ofDigit 1)

/-- What the last checkpoint follows may be told though it was collected, and may not be told though
it is stored. -/
theorem not_tellsPrevious :
    (Turn.Proper "sink" collectingRun ∧ ¬ TellsPrevious "sink" collecting) ∧
    Turn.Proper "sink" forgettingRun ∧ ¬ TellsPrevious "sink" forgetting := by
  have follows : takenHeader.previous = .ofDigit 1 := by decide +kernel
  refine ⟨⟨⟨by decide, by decide, by simp [collectingRun]⟩, fun tells => ?_⟩,
    ⟨by decide, by decide, by simp [forgettingRun]⟩, fun tells => ?_⟩
  · obtain ⟨listed, last, second⟩ : collecting.listing = .ok [takenHeader] ∧
        collecting.service.last = .ofDigit 2 ∧ collecting.service.secondLast ≠ .nil := by
      decide +kernel
    have here : collecting.store.Holds takenHeader := (Store.mem_headers listed).mp (by simp)
    refine second ((tells takenHeader here rfl last.symm).2 ?_)
    rintro ⟨h, holds, _, named⟩
    have only := (Store.mem_headers listed).mpr holds
    rw [List.mem_singleton.mp only, follows] at named
    exact absurd named (by decide)
  · obtain ⟨listed, last, second⟩ : forgetting.listing = .ok (sinkHeaders ++
          [⟨.ofDigit 3, "sink", Instant.epoch.tick.tick.tick,
            (∅ : Dependencies).insert "sink" (.ofDigit 2)⟩]) ∧
        forgetting.service.last = .ofDigit 2 ∧ forgetting.service.secondLast = .nil := by
      decide +kernel
    have here : forgetting.store.Holds takenHeader :=
      (Store.mem_headers listed).mp (by simp [sinkHeaders, takenHeader])
    have first : forgetting.store.Holds (sinkHeaders.head (by decide)) :=
      (Store.mem_headers listed).mp (by simp [sinkHeaders])
    have told := (tells takenHeader here rfl last.symm).1 ⟨_, first, rfl, follows.symm⟩
    rw [second, follows] at told
    exact absurd told (by decide)

end Session

end Rollback
