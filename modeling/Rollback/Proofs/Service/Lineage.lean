import Mathlib.Data.List.Chain
import Rollback.Proofs.Service.Succession

/-!
# The lineage of an instance

Every checkpoint of an instance follows an older one of the instance or none, whichever of its
services took it and whatever the clock showed. What the service remembers is a part of this lineage
in the order of time. A checkpoint that is remembered follows the one that is remembered before it,
as far as the store can tell (`Follows`): what it follows may have been deleted.
-/

namespace Rollback

/-- A checkpoint that is remembered right behind another one follows it, or the one that it follows
has gone, and so has the other one. -/
def Follows (stored : CheckpointId → Prop) (a b : Header) : Prop :=
  b.previous = a.id ∨ b.previous ≠ .nil ∧ ¬ stored b.previous ∧ ¬ stored a.id

/-- A checkpoint that follows an older one of these, or none. -/
def Header.Rooted (h : Header) (own : List Header) : Prop :=
  h.previous = .nil ∨ ∃ k ∈ own, k.id = h.previous ∧ compare k.createdAt h.createdAt = .lt

theorem Header.Rooted.mono {h : Header} {own more : List Header} (rooted : h.Rooted own)
    (among : own ⊆ more) : h.Rooted more := by
  refine rooted.imp_right ?_
  rintro ⟨k, there, rest⟩
  exact ⟨k, among there, rest⟩

/-- Some of these checkpoints have gone, each with all stored ones that were created before. -/
structure Swept (own : List Header) (stored stored' : CheckpointId → Prop)
    (gone : List CheckpointId) : Prop where
  older : ∀ id ∈ gone, ∃ k ∈ own, k.id = id ∧
    ∀ h ∈ own, stored h.id → compare h.createdAt k.createdAt = .lt → h.id ∈ gone
  fewer : ∀ id, stored' id → stored id
  lost : ∀ id, stored' id → id ∉ gone

/-- What is left of a chain is a chain, if whoever loses the one before it can follow those before
that one. -/
theorem isChain_filter {α : Type} {R S before : α → α → Prop} {kept : α → Bool} {l : List α}
    (linked : l.IsChain R) (ordered : l.Pairwise before)
    (keeps : ∀ a ∈ l, ∀ b ∈ l, R a b → kept b = true → S a b)
    (skips : ∀ a ∈ l, ∀ b ∈ l, ∀ c ∈ l, before a b → R b c → kept a = true → kept b = false →
      S a c) : (l.filter kept).IsChain S := by
  induction l using List.reverseRecOn with
  | nil => exact .nil
  | append_singleton front c ih =>
    obtain ⟨linked, -, top⟩ := List.isChain_append.mp linked
    obtain ⟨ordered, -, -⟩ := List.pairwise_append.mp ordered
    have rest := ih linked ordered
      (fun a first b second => keeps a (List.mem_append_left _ first) b
        (List.mem_append_left _ second))
      (fun a first b second c third => skips a (List.mem_append_left _ first) b
        (List.mem_append_left _ second) c (List.mem_append_left _ third))
    rw [List.filter_append]
    cases here : kept c with
    | false => simpa [here] using rest
    | true =>
      rw [List.filter_singleton, here]
      refine List.isChain_append.mpr ⟨rest, .singleton c, ?_⟩
      rintro a last c' ⟨⟩
      obtain rfl | ⟨front, b, rfl⟩ := List.eq_nil_or_concat' front
      · cases last
      · have link : R b c := top b (by simp) c rfl
        rw [List.filter_append] at last
        cases there : kept b with
        | true =>
          obtain rfl : b = a := by simpa [there] using last
          exact keeps b (by simp) c (by simp) link here
        | false =>
          have last : a ∈ (front.filter kept).getLast? := by simpa [there] using last
          obtain ⟨member, keeps⟩ := List.mem_filter.mp (List.mem_of_getLast? last)
          have earlier := (List.pairwise_append.mp ordered).2.2 a member b List.mem_cons_self
          exact skips a (by simp [member]) b (by simp) c (by simp) earlier link keeps there

namespace Service

variable {ι : Type} {s s' : Service ι} {own own' heads : List Header}
  {stored stored' : CheckpointId → Prop}

theorem length_rewound_le (history : List CheckpointId) (id previous : CheckpointId) :
    (rewound history id previous).length ≤ max history.length 2 := by
  unfold rewound
  split
  · exact (List.length_take_le' _ _).trans (le_max_left _ _)
  · split <;> simp

/-- These are the headers of what the service remembers, all of them among its own. -/
structure Remembers (s : Service ι) (own heads : List Header) (stored : CheckpointId → Prop) :
    Prop where
  known : heads ⊆ own
  ids : heads.map (·.id) = s.history
  dated : s.Dated heads
  linked : heads.IsChain (Follows stored)

namespace Remembers

theorem of_fewer (remembers : s.Remembers own heads stored) (history : s'.history = s.history)
    (lastCreated : s'.lastCreated = s.lastCreated) (fewer : ∀ id, stored' id → stored id) :
    s'.Remembers own heads stored' := by
  constructor
  case known => exact remembers.known
  case ids => rw [history, remembers.ids]
  case dated => exact ⟨remembers.dated.ordered, lastCreated ▸ remembers.dated.recent⟩
  case linked =>
    refine remembers.linked.imp fun a b link => link.imp_right ?_
    rintro ⟨real, gone, lost⟩
    exact ⟨real, mt (fewer _) gone, mt (fewer _) lost⟩

theorem nothing (history : s.history = []) : s.Remembers own [] stored :=
  ⟨List.nil_subset _, history.symm, ⟨.nil, by simp⟩, .nil⟩

theorem nodup (remembers : s.Remembers own heads stored) (distinct : DistinctIds own) :
    s.history.Nodup := by
  have different : heads.Nodup := by
    refine remembers.dated.ordered.imp ?_
    rintro a _ earlier rfl
    simp [Std.ReflCmp.compare_self] at earlier
  rw [← remembers.ids]
  exact different.map_on fun a first b second =>
    distinct.eq_of_id (remembers.known first) (remembers.known second)

theorem getLast?_heads (remembers : s.Remembers own heads stored) :
    heads.getLast?.map (·.id) = s.history.getLast? := by
  rw [← remembers.ids, List.getLast?_map]

theorem follows {front : List Header} {a b : Header}
    (remembers : s.Remembers own (front ++ [a] ++ [b]) stored) : Follows stored a b :=
  (List.isChain_append.mp remembers.linked).2.2 a (by simp) b rfl

/-- A new checkpoint follows the last one. -/
theorem remember (remembers : s.Remembers own heads stored) {now : Instant} {h : Header}
    (next : h.createdAt = s.nextTime now) (previous : h.previous = s.last)
    (fresh : ∀ a ∈ own, a.id ≠ h.id ∧ a.previous ≠ h.id)
    (more : ∀ id, stored' id → h.id = id ∨ stored id) :
    (s.remember h.id h.createdAt).Remembers (own ++ [h])
      ((heads ++ [h]).drop ((heads ++ [h]).length - s.retained)) stored' := by
  have linked : (heads ++ [h]).IsChain (Follows stored') := by
    rw [List.isChain_append]
    refine ⟨remembers.linked.imp_of_mem_imp ?_, .singleton h, ?_⟩
    · rintro a b first second (direct | ⟨real, gone, lost⟩)
      · exact Or.inl direct
      · obtain ⟨_, other⟩ := fresh b (remembers.known second)
        obtain ⟨other', _⟩ := fresh a (remembers.known first)
        exact Or.inr ⟨real, fun back => gone ((more _ back).resolve_left (Ne.symm other)),
          fun back => lost ((more _ back).resolve_left (Ne.symm other'))⟩
    · rintro a top h' ⟨⟩
      left
      rw [previous, last, ← remembers.getLast?_heads, top]
      rfl
  constructor
  case known =>
    intro a member
    obtain member | same := List.mem_append.mp (List.mem_of_mem_drop member)
    · exact List.mem_append_left _ (remembers.known member)
    · exact List.mem_append_right _ same
  case ids =>
    have ids : (heads ++ [h]).map (·.id) = s.history ++ [h.id] := by
      rw [List.map_append, remembers.ids, List.map_singleton]
    rw [List.map_drop, ids, Service.remember, newest, ← ids, List.length_map]
  case dated => exact (remembers.dated.remember next h.id).sublist (List.drop_sublist _ _)
  case linked => exact linked.drop _

/-- What was restored stands last. What is remembered before it is what was remembered before, or
the one checkpoint that it follows. -/
theorem rewind (remembers : s.Remembers own heads stored) {h : Header} (member : h ∈ own)
    (rooted : h.Rooted own) : ∃ heads', (s.rewind h.id h).Remembers own heads' stored := by
  cases found : s.history.findIdx? (· = h.id) with
  | some position =>
    have history : (s.rewind h.id h).history = s.history.take (position + 1) := by
      rw [Service.rewind, rewound, found]
    refine ⟨heads.take (position + 1), ?_, ?_, ?_, remembers.linked.take _⟩
    · exact fun a among => remembers.known (List.mem_of_mem_take among)
    · rw [List.map_take, remembers.ids, history]
    · exact (remembers.dated.rewind h.id h).sublist (List.take_sublist _ _)
  | none =>
    have history : (s.rewind h.id h).history =
        if h.previous = .nil then [h.id] else [h.previous, h.id] := by
      rw [Service.rewind, rewound, found]
    have recent : ∀ a : Header, (compare a.createdAt h.createdAt).isLE = true →
        ∃ t, (s.rewind h.id h).lastCreated = some t ∧ (compare a.createdAt t).isLE = true := by
      intro a notNewer
      obtain ⟨t, last, reached⟩ := later_isLE s.lastCreated h.createdAt
      exact ⟨t, last, Std.TransCmp.isLE_trans notNewer reached⟩
    have itself : (compare h.createdAt h.createdAt).isLE = true := by
      simp [Std.ReflCmp.compare_self]
    by_cases first : h.previous = .nil
    · refine ⟨[h], by simpa using member, ?_, ⟨List.pairwise_singleton _ _, ?_⟩, .singleton h⟩
      · rw [history, if_pos first, List.map_singleton]
      · simpa using recent h itself
    · obtain ⟨k, known, before, earlier⟩ := rooted.resolve_left first
      refine ⟨[k, h], by simp [known, member], ?_, ⟨by simpa using earlier, ?_⟩, ?_⟩
      · rw [history, if_neg first, ← before]
        rfl
      · simpa using ⟨recent k (by rw [earlier]; rfl), recent h itself⟩
      · exact List.isChain_pair.mpr (Or.inl before.symm)

/-- To forget what was deleted with all that is older leaves a chain. -/
theorem forget (remembers : s.Remembers own heads stored) (distinct : DistinctIds own)
    (real : ∀ h ∈ own, h.id ≠ .nil) {gone : List CheckpointId}
    (swept : Swept own stored stored' gone) :
    (s.forget gone).Remembers own (heads.filter (·.id ∉ gone)) stored' := by
  obtain ⟨older, fewer, lost⟩ := swept
  constructor
  case known => exact fun a among => remembers.known (List.mem_of_mem_filter among)
  case ids => rw [Service.forget, ← remembers.ids, List.filter_map]; rfl
  case dated =>
    have dated := remembers.dated.sublist (List.filter_sublist (p := (·.id ∉ gone)))
    exact ⟨dated.ordered, dated.recent⟩
  case linked =>
    refine isChain_filter remembers.linked remembers.dated.ordered ?_ ?_
    · rintro a _ b _ (direct | ⟨real, gone, lost⟩) _
      · exact Or.inl direct
      · exact Or.inr ⟨real, mt (fewer _) gone, mt (fewer _) lost⟩
    · intro a first b second c _ earlier link keeps deleted
      have keeps : a.id ∉ gone := of_decide_eq_true keeps
      have deleted : b.id ∈ gone := by simpa using deleted
      obtain ⟨k, known, same, before⟩ := older b.id deleted
      obtain rfl := distinct.eq_of_id known (remembers.known second) same
      have lost' : ¬ stored' a.id :=
        fun held => keeps (before a (remembers.known first) (fewer _ held) earlier)
      obtain direct | ⟨real', gone', _⟩ := link
      · refine Or.inr ⟨direct ▸ real k known, fun held => ?_, lost'⟩
        exact lost _ held (direct ▸ deleted)
      · exact Or.inr ⟨real', mt (fewer _) gone', lost'⟩

end Remembers

end Service

/-! ## Own checkpoints -/

/-- All own checkpoints that were ever taken. Each of them follows an older one or none. -/
structure Store.Roll (s : Store) (name : String) (own : List Header) : Prop where
  only : s.HasOnly name own
  distinct : DistinctIds own
  real : ∀ h ∈ own, h.id ≠ .nil
  owned : ∀ h ∈ own, h.owner = name
  rooted : ∀ h ∈ own, h.Rooted own

namespace Store.Roll

variable {s s' : Store} {name : String} {own : List Header} {c : Checkpoint}

theorem of_only (roll : s.Roll name own) (only : s'.HasOnly name own) : s'.Roll name own :=
  ⟨only, roll.distinct, roll.real, roll.owned, roll.rooted⟩

theorem put (roll : s.Roll name own) (stored : s.put c = (.ok (), s'))
    (owned : c.header.owner = name) (real : c.id ≠ .nil) (fresh : ∀ a ∈ own, a.id ≠ c.id)
    (rooted : c.header.Rooted own) : s'.Roll name (own ++ [c.header]) := by
  constructor
  case only => exact roll.only.put stored
  case distinct =>
    rw [DistinctIds, List.map_append, List.map_singleton, List.nodup_append]
    refine ⟨roll.distinct, List.nodup_singleton _, ?_⟩
    rintro id member id' same rfl
    obtain ⟨a, known, rfl⟩ := List.mem_map.mp member
    exact fresh a known (List.mem_singleton.mp same)
  case real => simpa [or_imp, forall_and] using ⟨roll.real, real⟩
  case owned => simpa [or_imp, forall_and] using ⟨roll.owned, owned⟩
  case rooted =>
    have more : own ⊆ own ++ [c.header] := List.subset_append_left _ _
    simpa [or_imp, forall_and] using
      ⟨fun h known => (roll.rooted h known).mono more, rooted.mono more⟩

theorem isOlder_of_previous (roll : s.Roll name own) {h k : Header} (here : h ∈ own)
    (there : k ∈ own) (follows : h.previous = k.id) : k.isOlder h = true := by
  obtain first | ⟨k', known, same, earlier⟩ := roll.rooted h here
  · exact absurd (follows.symm.trans first) (roll.real k there)
  · rw [roll.distinct.eq_of_id known there (same.trans follows)] at earlier
    exact Header.isOlder_of_createdAt earlier

theorem swept (roll : s.Roll name own) {gone : List CheckpointId}
    (sweeps : s.Sweeps s' name gone) : Swept own (s.Has name) (s'.Has name) gone := by
  constructor
  · intro id deleted
    obtain ⟨k, holds, owned, same, older⟩ := sweeps.older id deleted
    refine ⟨k, roll.only.mem holds owned, same, ?_⟩
    rintro h known ⟨h', holds', owned', same'⟩ earlier
    obtain rfl := roll.distinct.eq_of_id (roll.only.mem holds' owned') known same'
    exact older h' holds' owned' earlier
  · exact fun _ has => sweeps.within.has has
  · rintro id ⟨h, holds, owned, rfl⟩
    exact sweeps.lost h holds owned

end Store.Roll

namespace Session

variable {ι σ : Type} {n m : Session ι σ} {name : String} {retained : Nat} {own : List Header}

/-- The store has the instance's own checkpoints only as they were taken, and the service remembers
some of them. -/
structure Lineage (name : String) (retained : Nat) (own : List Header) (n : Session ι σ) :
    Prop where
  named : n.service.name = name
  retains : n.service.retained = max retained 2
  short : n.service.history.length ≤ n.service.retained
  roll : n.store.Roll name own
  remembers : ∃ heads, n.service.Remembers own heads (n.store.Has name)

namespace Lineage

theorem two_le (lineage : Lineage name retained own n) : 2 ≤ n.service.retained := by
  rw [lineage.retains]
  exact le_max_right _ _

theorem not_has_nil (lineage : Lineage name retained own n) : ¬ n.store.Has name .nil := by
  rintro ⟨h, holds, owned, none⟩
  exact lineage.roll.real h (lineage.roll.only.mem holds owned) none

theorem hasOnly (lineage : Lineage name retained own n) :
    n.store.HasOnly n.service.name own := by
  rw [lineage.named]
  exact lineage.roll.only

/-- The service remembers what it did, and the store has at most what it had. -/
theorem of_fewer (lineage : Lineage name retained own n) (named : m.service.name = n.service.name)
    (retains : m.service.retained = n.service.retained)
    (history : m.service.history = n.service.history)
    (lastCreated : m.service.lastCreated = n.service.lastCreated)
    (only : m.store.HasOnly name own) (fewer : ∀ id, m.store.Has name id → n.store.Has name id) :
    Lineage name retained own m := by
  obtain ⟨heads, remembers⟩ := lineage.remembers
  constructor
  case named => rw [named, lineage.named]
  case retains => rw [retains, lineage.retains]
  case short => rw [history, retains]; exact lineage.short
  case roll => exact lineage.roll.of_only only
  case remembers => exact ⟨heads, remembers.of_fewer history lastCreated fewer⟩

/-- The checkpoint on which the service stands is one of its own, and older than the next one. -/
theorem last_cases (lineage : Lineage name retained own n) : n.service.last = .nil ∨
    ∃ k ∈ own, k.id = n.service.last ∧
      ∀ now, compare k.createdAt (n.service.nextTime now) = .lt := by
  obtain ⟨heads, remembers⟩ := lineage.remembers
  rw [Service.last, ← remembers.getLast?_heads]
  cases top : heads.getLast? with
  | none => exact Or.inl rfl
  | some k =>
    have member := List.mem_of_getLast? top
    exact Or.inr ⟨k, remembers.known member, rfl, fun now => remembers.dated.before_next now member⟩

theorem previous_ne (lineage : Lineage name retained own n) {id : CheckpointId} (real : id ≠ .nil)
    (fresh : ∀ a ∈ own, a.id ≠ id) {a : Header} (known : a ∈ own) : a.previous ≠ id := by
  obtain first | ⟨k, there, same, _⟩ := lineage.roll.rooted a known
  · rw [first]
    exact real.symm
  · rw [← same]
    exact fresh k there

theorem took (lineage : Lineage name retained own n) {fresh : CheckpointId} {now : Instant}
    {c : Checkpoint} (made : c.header = n.service.nextHeader fresh now)
    (stored : n.store.put c = (.ok (), m.store))
    (service : m.service = n.service.remember fresh c.header.createdAt) (real : fresh ≠ .nil)
    (unused : ∀ a ∈ own, a.id ≠ fresh) : Lineage name retained (own ++ [c.header]) m := by
  obtain ⟨heads, remembers⟩ := lineage.remembers
  have id : c.header.id = fresh := congrArg Header.id made
  have next : c.header.createdAt = n.service.nextTime now := congrArg Header.createdAt made
  have previous : c.header.previous = n.service.last := by
    rw [made, Service.previous_nextHeader]
  subst id
  constructor
  case named => rw [service]; exact lineage.named
  case retains => rw [service]; exact lineage.retains
  case short => rw [service]; exact Service.length_newest_le _ _
  case roll =>
    refine lineage.roll.put stored (by rw [made]; exact lineage.named) real unused ?_
    rw [Header.Rooted, previous, next]
    refine lineage.last_cases.imp_right ?_
    rintro ⟨k, known, same, earlier⟩
    exact ⟨k, known, same, earlier now⟩
  case remembers =>
    rw [service]
    refine ⟨_, remembers.remember next previous
      (fun a known => ⟨unused a known, lineage.previous_ne real unused known⟩) ?_⟩
    exact fun _ has => (Store.has_put stored has).imp_left And.right

theorem restored (lineage : Lineage name retained own n) {id : CheckpointId} {c : Checkpoint}
    (read : n.store.retrieve id = .ok (some c)) (owned : c.header.owner = n.service.name)
    (store : m.store = n.store) (service : m.service = n.service.rewind id c.header) :
    Lineage name retained own m := by
  obtain ⟨heads, remembers⟩ := lineage.remembers
  obtain ⟨known, rfl⟩ := lineage.roll.only.read read (owned.trans lineage.named)
  have remembers := remembers.rewind known (lineage.roll.rooted _ known)
  constructor
  case named => rw [service]; exact lineage.named
  case retains => rw [service]; exact lineage.retains
  case short =>
    rw [service]
    exact (Service.length_rewound_le _ _ _).trans (max_le lineage.short lineage.two_le)
  case roll => rw [store]; exact lineage.roll
  case remembers => rw [service, store]; exact remembers

theorem collected (lineage : Lineage name retained own n) {gone : List CheckpointId}
    (sweeps : n.store.Sweeps m.store name gone) (service : m.service = n.service.forget gone) :
    Lineage name retained own m := by
  obtain ⟨heads, remembers⟩ := lineage.remembers
  have roll := lineage.roll
  constructor
  case named => rw [service]; exact lineage.named
  case retains => rw [service]; exact lineage.retains
  case short => rw [service]; exact (List.length_filter_le _ _).trans lineage.short
  case roll => exact roll.of_only (roll.only.within sweeps.within)
  case remembers =>
    rw [service]
    exact ⟨_, remembers.forget roll.distinct roll.real (roll.swept sweeps)⟩

/-- A service that remembers nothing goes on with what the store has left. -/
theorem forgotten (lineage : Lineage name retained own n) {retained' : Nat}
    (named : m.service.name = n.service.name) (retains : m.service.retained = max retained' 2)
    (history : m.service.history = []) (only : m.store.HasOnly name own) :
    Lineage name retained' own m := by
  constructor
  case named => rw [named, lineage.named]
  case retains => exact retains
  case short => rw [history]; exact Nat.zero_le _
  case roll => exact lineage.roll.of_only only
  case remembers => exact ⟨[], .nothing history⟩

/-- The lineage goes on over a turn: a take adds the new checkpoint to it, and nothing else does. -/
theorem passage {turn : Turn ι σ} (lineage : Lineage name retained own n)
    (passage : Passage n turn m)
    (fresh : ∀ id, turn.fresh? = some id → id ≠ .nil ∧ ∀ a ∈ own, a.id ≠ id)
    (others : ∀ c, turn = .tend (.act (.put c)) → c.header.owner ≠ name) :
    ∃ more, Lineage name (turn.retained?.getD retained) (own ++ more) m ∧
      ∀ h ∈ more, turn.fresh? = some h.id ∧
        ∃ c, c.header = h ∧ n.store.put c = (.ok (), m.store) := by
  have same : ∀ {next : Session ι σ}, Lineage name (turn.retained?.getD retained) own next →
      ∃ more, Lineage name (turn.retained?.getD retained) (own ++ more) next ∧
        ∀ h ∈ more, turn.fresh? = some h.id ∧
          ∃ c, c.header = h ∧ n.store.put c = (.ok (), next.store) := by
    intro next lineage
    exact ⟨[], by rwa [List.append_nil], by simp⟩
  cases passage with
  | idle named retains history lastCreated store _ =>
    refine same (lineage.of_fewer named retains history lastCreated ?_ ?_)
    · rw [store]
      exact lineage.roll.only
    · rw [store]
      exact fun _ has => has
  | @took _ id _ _ c made stored service _ =>
    obtain ⟨real, unused⟩ := fresh id rfl
    refine ⟨[c.header], lineage.took made stored service real unused, ?_⟩
    rintro h here
    rw [List.mem_singleton.mp here]
    exact ⟨by rw [made]; rfl, c, rfl, stored⟩
  | restored read owned store service _ =>
    exact same (lineage.restored read owned store service)
  | put stored service _ =>
    have other := others _ rfl
    refine same (lineage.of_fewer (by rw [service]) (by rw [service]) (by rw [service])
      (by rw [service]) (lineage.roll.only.put_other stored other) ?_)
    intro id has
    exact (Store.has_put stored has).resolve_left fun mine => other mine.1
  | collected sweeps service _ =>
    exact same (lineage.collected (lineage.named ▸ sweeps) service)
  | thinned old within service _ =>
    have thinned : Lineage name retained own m := lineage.of_fewer (by rw [service])
      (by rw [service]) (by rw [service]) (by rw [service]) (lineage.roll.only.within within)
      fun _ has => within.has has
    exact same (by rwa [old])
  | cleared within service _ =>
    refine same (lineage.forgotten (by rw [service]) ?_ (by rw [service])
      (lineage.roll.only.within within))
    rw [service]
    exact lineage.retains
  | succeeded service store _ =>
    refine same (lineage.forgotten (by rw [service]; rfl) (by rw [service]; rfl)
      (by rw [service]; rfl) ?_)
    rw [store]
    exact lineage.roll.only

end Lineage

/-! ## Runs -/

/-- Each take is given an id of its own that is not nil, and nobody else stores checkpoints under
the instance's name. -/
structure Turn.Proper (name : String) (turns : List (Turn ι σ)) : Prop where
  distinct : (minted turns).Nodup
  real : .nil ∉ minted turns
  others : ∀ c, .tend (.act (.put c)) ∈ turns → c.header.owner ≠ name

variable [Checkpointable σ] [DecidableEq ι] {turns : List (Turn ι σ)} {last : Turn ι σ} {h : Header}

/-- One of the turns stores a checkpoint with this header. -/
def Deposits (n : Session ι σ) (turns : List (Turn ι σ)) (h : Header) : Prop :=
  ∃ front turn back c, turns = front ++ turn :: back ∧ c.header = h ∧
    (n.succession front).store.put c = (.ok (), (n.succession (front ++ [turn])).store)

theorem Deposits.concat (deposits : Deposits n turns h) (last : Turn ι σ) :
    Deposits n (turns ++ [last]) h := by
  obtain ⟨front, turn, back, c, rfl, named, stored⟩ := deposits
  exact ⟨front, turn, back ++ [last], c, by simp, named, stored⟩

omit [Checkpointable σ] [DecidableEq ι] in
theorem Turn.minted_concat : minted (turns ++ [last]) = minted turns ++ last.fresh?.toList := by
  rw [minted, List.filterMap_append, minted]
  cases given : last.fresh? <;> simp [given]

omit [Checkpointable σ] [DecidableEq ι] in
theorem Turn.Proper.of_concat (proper : Proper name (turns ++ [last])) : Proper name turns ∧
    (∀ id, last.fresh? = some id → id ≠ .nil ∧ ∀ other ∈ minted turns, other ≠ id) ∧
    ∀ c, last = .tend (.act (.put c)) → c.header.owner ≠ name := by
  obtain ⟨distinct, real, others⟩ := proper
  rw [minted_concat] at distinct real
  obtain ⟨before, -, fresh⟩ := List.nodup_append.mp distinct
  rw [List.mem_append, not_or] at real
  refine ⟨⟨before, real.1, fun c member => others c (List.mem_append_left _ member)⟩, ?_, ?_⟩
  · intro id given
    rw [given] at real fresh
    exact ⟨fun same => real.2 (by simp [same]), fun other member => fresh other member id (by simp)⟩
  · rintro c rfl
    exact others c List.mem_concat_self

theorem exists_lineage {world : World ι σ} {storage : StoreId}
    (lacks : (world.stores storage).Lacks name) (gate : GateId) (retained : Nat)
    (proper : Turn.Proper name turns) : ∃ own,
      Lineage name (Turn.retention retained turns) own
        ((start world name storage gate retained).succession turns) ∧
      ∀ h ∈ own, h.id ∈ Turn.minted turns ∧
        Deposits (start world name storage gate retained) turns h := by
  induction turns using List.reverseRecOn with
  | nil =>
    refine ⟨[], ⟨rfl, rfl, Nat.zero_le _, ?_, [], .nothing rfl⟩, by simp⟩
    exact ⟨lacks, List.nodup_nil, by simp, by simp, by simp⟩
  | append_singleton turns last ih =>
    obtain ⟨proper, fresh, others⟩ := proper.of_concat
    obtain ⟨own, lineage, origin⟩ := ih proper
    have passage := turn_passage lineage.hasOnly last
    rw [← succession_concat] at passage
    obtain ⟨more, lineage, added⟩ := lineage.passage passage (fun id given =>
      (fresh id given).imp_right fun unused a known => unused _ (origin a known).1) others
    refine ⟨own ++ more, ?_, ?_⟩
    · rw [Turn.retention, List.foldl_concat]
      exact lineage
    · intro h member
      rw [Turn.minted_concat]
      obtain known | new := List.mem_append.mp member
      · obtain ⟨given, deposits⟩ := origin h known
        exact ⟨List.mem_append_left _ given, deposits.concat last⟩
      · obtain ⟨given, c, named, stored⟩ := added h new
        refine ⟨List.mem_append_right _ (by simp [given]), turns, last, [], c, rfl, named, stored⟩

/-- Whatever the services of an instance do one after the other, and whatever the clock shows: a
stored checkpoint is newer than the stored one that it follows, and what the service remembers are
distinct checkpoints of the run in strict order of time, not more than it was told to remember. -/
theorem succession_in_order {world : World ι σ} {storage : StoreId}
    (lacks : (world.stores storage).Lacks name) (gate : GateId) (retained : Nat)
    (proper : Turn.Proper name turns)
    (runs : (start world name storage gate retained).succession turns = n) :
    (∀ h k, n.store.Holds h → h.owner = name → n.store.Holds k → k.owner = name →
      h.previous = k.id → k.isOlder h = true) ∧
    (∃ heads : List Header, heads.map (·.id) = n.service.history ∧
      (∀ h ∈ heads, h.owner = name ∧
        Deposits (start world name storage gate retained) turns h) ∧
      heads.Pairwise fun a b => compare a.createdAt b.createdAt = .lt) ∧
    n.service.history.Nodup ∧ n.service.history.length ≤ n.service.retained ∧
    n.service.retained = max (Turn.retention retained turns) 2 := by
  obtain ⟨own, lineage, origin⟩ := exists_lineage lacks gate retained proper
  rw [runs] at lineage
  obtain ⟨heads, remembers⟩ := lineage.remembers
  refine ⟨?_, ⟨heads, remembers.ids, ?_, remembers.dated.ordered⟩, ?_, lineage.short,
    lineage.retains⟩
  · intro h k here mine there mine' follows
    exact lineage.roll.isOlder_of_previous (lineage.roll.only.mem here mine)
      (lineage.roll.only.mem there mine') follows
  · intro h member
    exact ⟨lineage.roll.owned h (remembers.known member), (origin h (remembers.known member)).2⟩
  · exact remembers.nodup lineage.roll.distinct

/-! ## A sink whose service is replaced -/

/-- The second service goes back to what the first one has taken, and its clock is behind. -/
def replacingRun : List (Turn Empty Cell) := [
  .tend (.act (.take 0 (.ofDigit 1) Instant.epoch.tick.tick)),
  .succeed 0 2,
  .tend (.act (.restore 0 (.ofDigit 1))),
  .tend (.act (.take 0 (.ofDigit 2) Instant.epoch.tick))]

def replaced : Session Empty Cell := (start .initial "sink" 0 0 16).succession replacingRun

def firstHeader : Header where
  id := .ofDigit 1
  owner := "sink"
  createdAt := Instant.epoch.tick.tick
  dependencies := (∅ : Dependencies).insert "sink" .nil

def secondHeader : Header where
  id := .ofDigit 2
  owner := "sink"
  createdAt := Instant.epoch.tick.tick.tick
  dependencies := (∅ : Dependencies).insert "sink" (.ofDigit 1)

theorem replacingRun_proper : Turn.Proper "sink" replacingRun := by
  constructor
  · decide
  · decide
  · simp [replacingRun]

theorem replaced_eq : replaced.listing = .ok [firstHeader, secondHeader] ∧
    replaced.service.history = [.ofDigit 1, .ofDigit 2] ∧ replaced.service.retained = 2 := by
  decide +kernel

theorem succession_in_order_replaced :
    replaced.listing = .ok [firstHeader, secondHeader] ∧
    firstHeader.isOlder secondHeader = true ∧
    (∃ heads : List Header, heads.map (·.id) = [.ofDigit 1, .ofDigit 2] ∧
      (∀ h ∈ heads, h.owner = "sink" ∧ Deposits (start .initial "sink" 0 0 16) replacingRun h) ∧
      heads.Pairwise fun a b => compare a.createdAt b.createdAt = .lt) ∧
    replaced.service.history.Nodup ∧ replaced.service.history.length ≤ 2 := by
  obtain ⟨listed, history, retains⟩ := replaced_eq
  obtain ⟨older, heads, distinct, short, -⟩ := succession_in_order (n := replaced)
    (Store.lacks_empty .compact "sink") 0 16 replacingRun_proper rfl
  rw [history] at heads
  rw [retains] at short
  have first : replaced.store.Holds firstHeader := (Store.mem_headers listed).mp (by simp)
  have second : replaced.store.Holds secondHeader := (Store.mem_headers listed).mp (by simp)
  have follows : secondHeader.previous = firstHeader.id := by decide +kernel
  exact ⟨listed, older _ _ second rfl first rfl follows, heads, distinct, short⟩

end Session

end Rollback
