import Rollback.Proofs.Service.Upkeep
import Rollback.Proofs.Store.Reading

/-!
# Services that succeed one another

The service of an instance may end at any time. The next one under its name knows nothing but what
the store has, which may have been cleared in between. What a turn of such a run can do to the
chain, the store and the log is said once (`turn_passage`), for a store in which all checkpoints of
the instance are those of its services.
-/

namespace Rollback

/-- Checkpoints have gone from a store, each with all of its owner's that were created before. -/
structure Store.Sweeps (before after : Store) (owner : String) (gone : List CheckpointId) :
    Prop where
  older : ∀ id ∈ gone, ∃ k, before.Holds k ∧ k.owner = owner ∧ k.id = id ∧
    ∀ h, before.Holds h → h.owner = owner → compare h.createdAt k.createdAt = .lt → h.id ∈ gone
  within : after.Within before
  lost : ∀ h, after.Holds h → h.owner = owner → h.id ∉ gone

namespace Service

variable {ι σ : Type} {s : Service ι} {w : World ι σ}

/-- The header of the next checkpoint. -/
def nextHeader (s : Service ι) (fresh : CheckpointId) (now : Instant) : Header where
  id := fresh
  owner := s.name
  createdAt := s.nextTime now
  dependencies := s.tracker.current.insert s.name s.last

theorem previous_nextHeader (s : Service ι) (fresh : CheckpointId) (now : Instant) :
    (s.nextHeader fresh now).previous = s.last := by
  simp [nextHeader, Header.previous]

/-- If nothing keeps them from being deleted, all checkpoints are deleted and forgotten. -/
theorem deleteAll_of_deletable {gone : List CheckpointId}
    (deletable : ∀ id ∈ gone, (s.store w).Deletable id) (deleted : Nat) : ∃ count store,
      s.deleteAll w deleted gone = (.ok count, s.forget gone, w.setStore s.storage store) ∧
      store.Within (s.store w) ∧
      ∀ id ∈ gone, ∀ h, ¬ store.HoldsAt (DirectoryStore.fileName id) h := by
  induction gone generalizing s w deleted with
  | nil =>
    refine ⟨deleted, s.store w, ?_, .refl _, by simp⟩
    rw [store, World.setStore_self]
    simp [deleteAll, forget]
  | cons id rest ih =>
    obtain ⟨present, next, deletes⟩ := deletable id List.mem_cons_self
    have here : (s.forget [id]).store (w.setStore s.storage next) = next := w.stores_setStore _ _
    have deletableRest : ∀ other ∈ rest, next.Deletable other :=
      fun other later => (deletable other (List.mem_cons_of_mem _ later)).delete deletes
    rw [← here] at deletableRest
    obtain ⟨count, store, deletesRest, within, lost⟩ := ih deletableRest (deleted + present.toNat)
    rw [here] at within
    refine ⟨count, store, ?_, within.trans (Store.within_delete deletes), ?_⟩
    · have forgets : { s with history := s.history.filter (· ≠ id) } = s.forget [id] := by
        simp [forget]
      simp only [deleteAll, deletes, forgets, deletesRest]
      rw [forget_forget]
      exact congrArg (_, _, ·) (World.setStore_setStore _ _ _ _)
    · intro other gone h holds
      obtain rfl | later := List.mem_cons.mp gone
      · exact Store.retrieve_ne_none (within.holdsAt holds) (Store.retrieve_deleted deletes)
      · exact lost other later h holds

/-- Nothing changes, or all own checkpoints are deleted that are older than one of them. -/
theorem collect_cases (s : Service ι) (w : World ι σ) (line : Line) :
    (∃ result, s.collect w line = (result, s, w)) ∨ ∃ (found : List Header) (kept : Header),
      (∀ h, h ∈ found ↔ (s.store w).Holds h ∧ h.owner = s.name) ∧
      s.collect w line = s.deleteAll w 0 ((found.filter (·.isOlder kept)).map (·.id)) := by
  cases chosen : line.checkpointFor s.name with
  | none => exact Or.inl ⟨.ok 0, by simp only [collect, chosen]⟩
  | some keep =>
    cases listed : (s.store w).headers none with
    | error e => exact Or.inl (collect_of_error listed line)
    | ok all =>
      have own : (s.store w).headers (some s.name) = .ok (all.filter (·.owner = s.name)) := by
        rw [Store.headers_some, listed]
        rfl
      cases place : (all.filter (·.owner = s.name)).find? (·.id = keep) with
      | none => exact Or.inl ⟨.ok 0, by simp only [collect, chosen, own, place]⟩
      | some kept =>
        refine Or.inr ⟨all.filter (·.owner = s.name), kept, fun h => ?_,
          by simp only [collect, chosen, own, place]⟩
        rw [List.mem_filter, decide_eq_true_eq, Store.mem_headers listed]

end Service

namespace Session

variable {ι σ : Type}

inductive Turn (ι σ : Type) where
  | tend (chore : Chore ι σ)
  /-- The service clears the store. -/
  | clear
  /-- A new service under the same name takes the place of the one before. -/
  | succeed (gate : GateId) (retained : Nat)

namespace Turn

/-- The id that a take is given. -/
def fresh? : Turn ι σ → Option CheckpointId
  | tend (.act (.take _ fresh _)) => some fresh
  | _ => none

/-- How many checkpoints the services from now on are to remember, if that changes. -/
def retained? : Turn ι σ → Option Nat
  | succeed _ retained => some retained
  | _ => none

/-- The ids that takes are given, whether they succeed or not. -/
def minted (turns : List (Turn ι σ)) : List CheckpointId := turns.filterMap fresh?

/-- What the last service was told to remember. -/
def retention (first : Nat) (turns : List (Turn ι σ)) : Nat :=
  turns.foldl (fun retained turn => turn.retained?.getD retained) first

end Turn

def clear (n : Session ι σ) : Session ι σ :=
  let (_, service, world) := n.service.clear n.world
  { n with service, world }

def succeed (n : Session ι σ) (gate : GateId) (retained : Nat) : Session ι σ :=
  { n with service := .new n.service.name n.service.storage gate retained }

section Succession

variable [Checkpointable σ] [DecidableEq ι]

def turn (n : Session ι σ) : Turn ι σ → Session ι σ
  | .tend chore => n.tend chore
  | .clear => n.clear
  | .succeed gate retained => n.succeed gate retained

def succession (n : Session ι σ) (turns : List (Turn ι σ)) : Session ι σ := turns.foldl turn n

theorem succession_concat (n : Session ι σ) (turns : List (Turn ι σ)) (last : Turn ι σ) :
    n.succession (turns ++ [last]) = (n.succession turns).turn last := by
  rw [succession, List.foldl_concat, succession]

end Succession

/-! ## What a turn does -/

/-- What becomes of a session by a turn. -/
inductive Passage (n : Session ι σ) : Turn ι σ → Session ι σ → Prop where
  /-- The chain, the store and the log are as they were. -/
  | idle {chore : Chore ι σ} {m : Session ι σ} (name : m.service.name = n.service.name)
      (retained : m.service.retained = n.service.retained)
      (history : m.service.history = n.service.history)
      (lastCreated : m.service.lastCreated = n.service.lastCreated)
      (store : m.store = n.store) (log : m.log = n.log) : Passage n (.tend chore) m
  | took {token : GateId} {fresh : CheckpointId} {now : Instant} {m : Session ι σ} {c : Checkpoint}
      (made : c.header = n.service.nextHeader fresh now)
      (stored : n.store.put c = (.ok (), m.store))
      (service : m.service = n.service.remember fresh c.header.createdAt)
      (log : m.log = n.log ++ [.took fresh]) : Passage n (.tend (.act (.take token fresh now))) m
  | restored {token : GateId} {id : CheckpointId} {m : Session ι σ} {c : Checkpoint}
      (read : n.store.retrieve id = .ok (some c)) (owned : c.header.owner = n.service.name)
      (store : m.store = n.store) (service : m.service = n.service.rewind id c.header)
      (log : m.log = n.log ++ [.restored id]) : Passage n (.tend (.act (.restore token id))) m
  | put {c : Checkpoint} {m : Session ι σ} (stored : n.store.put c = (.ok (), m.store))
      (service : m.service = n.service) (log : m.log = n.log) : Passage n (.tend (.act (.put c))) m
  | collected {line : Line} {m : Session ι σ} {gone : List CheckpointId}
      (sweeps : n.store.Sweeps m.store n.service.name gone)
      (service : m.service = n.service.forget gone) (log : m.log = n.log) :
      Passage n (.tend (.collect line)) m
  /-- The store has lost checkpoints, of which the service knows nothing. -/
  | thinned {turn : Turn ι σ} {m : Session ι σ} (same : turn.retained? = none)
      (within : m.store.Within n.store) (service : m.service = n.service) (log : m.log = n.log) :
      Passage n turn m
  | cleared {m : Session ι σ} (within : m.store.Within n.store)
      (service : m.service = { n.service with history := [] }) (log : m.log = n.log) :
      Passage n .clear m
  | succeeded {gate : GateId} {retained : Nat} {m : Session ι σ}
      (service : m.service = .new n.service.name n.service.storage gate retained)
      (store : m.store = n.store) (log : m.log = n.log) : Passage n (.succeed gate retained) m

namespace Passage

variable {n : Session ι σ}

theorem self (n : Session ι σ) (chore : Chore ι σ) : Passage n (.tend chore) n :=
  .idle rfl rfl rfl rfl rfl rfl

theorem drop (n : Session ι σ) (id : CheckpointId) : Passage n (.tend (.drop id)) (n.drop id) := by
  cases deleted : n.store.delete id with
  | mk present store =>
    refine .thinned rfl ?_ rfl rfl
    have after : (n.drop id).store = store := by
      have left : (n.store.delete id).2 = store := by rw [deleted]
      exact (store_setStore _ _ _ _).trans left
    rw [after]
    exact Store.within_delete deleted

theorem clear (n : Session ι σ) : Passage n .clear n.clear := by
  unfold Session.clear Service.clear
  cases cleared : (n.service.store n.world).clear with
  | mk result store =>
    have within := Store.within_clear cleared
    rw [← n.world.stores_setStore n.service.storage store] at within
    cases result with
    | ok _ => exact .cleared within rfl rfl
    | error e => exact .thinned rfl within rfl rfl

/-- What is older than the selected checkpoint is deleted and forgotten, if the store lists it. -/
theorem collect {own : List Header} (only : n.store.HasOnly n.service.name own) (line : Line) :
    Passage n (.tend (.collect line)) (n.collect line) := by
  unfold Session.collect
  obtain ⟨result, same⟩ | ⟨found, kept, held, sweeps⟩ := n.service.collect_cases n.world line
  · rw [same]
    exact .self n _
  · have deletable : ∀ id ∈ (found.filter (·.isOlder kept)).map (·.id),
        (n.service.store n.world).Deletable id := by
      intro id gone
      obtain ⟨h, older, rfl⟩ := List.mem_map.mp gone
      obtain ⟨⟨name, holds⟩, owned⟩ := (held h).mp (List.mem_of_mem_filter older)
      exact Store.deletable_of_holdsAt ((only.listed holds owned).2 ▸ holds)
    obtain ⟨count, store, deletes, within, lost⟩ := Service.deleteAll_of_deletable deletable 0
    rw [sweeps, deletes]
    have after := store_setStore (n.service.forget
      ((found.filter (·.isOlder kept)).map (·.id))) n.world store n.log
    refine .collected ⟨?_, after.symm ▸ within, ?_⟩ rfl rfl
    · intro id gone
      obtain ⟨k, older, rfl⟩ := List.mem_map.mp gone
      obtain ⟨member, older⟩ := List.mem_filter.mp older
      obtain ⟨holds, owned⟩ := (held k).mp member
      refine ⟨k, holds, owned, rfl, fun h holds' owned' earlier => ?_⟩
      exact List.mem_map_of_mem (List.mem_filter.mpr ⟨(held h).mpr ⟨holds', owned'⟩,
        Header.isOlder_trans (Header.isOlder_of_createdAt earlier) older⟩)
    · rintro h ⟨name, holds⟩ owned gone
      have holds : store.HoldsAt name h := after ▸ holds
      have named := (only.listed (within.holdsAt holds) owned).2
      exact lost h.id gone h (named ▸ holds)

variable [Checkpointable σ]

theorem take (n : Session ι σ) (token : GateId) (fresh : CheckpointId) (now : Instant) :
    Passage n (.tend (.act (.take token fresh now))) (n.take token fresh now) := by
  unfold Session.take
  cases took : n.service.take n.world token fresh now with
  | mk result after =>
    obtain ⟨s, w⟩ := after
    obtain ⟨h, snapshots, store, rfl, made, stored, rfl, rfl⟩ | ⟨e, rfl, rfl, rfl⟩ :=
      Service.take_cases took
    · exact .took (c := ⟨h, snapshots⟩) made
        (stored.trans (congrArg _ (n.world.stores_setStore _ _).symm)) rfl rfl
    · exact .self n _

variable [DecidableEq ι]

theorem restore (n : Session ι σ) (token : GateId) (id : CheckpointId) :
    Passage n (.tend (.act (.restore token id))) (n.restore token id) := by
  unfold Session.restore
  cases restored : n.service.restore n.world token id with
  | mk result after =>
    obtain ⟨s, w⟩ := after
    obtain ⟨⟨c, rfl, read, owned, rfl⟩ | ⟨e, rfl, rfl⟩, stores⟩ := Service.restore_cases restored
    · have store : w.stores n.service.storage = n.store := congrFun stores _
      exact .restored (Store.retrieve_of_get read) owned store rfl rfl
    · exact .idle rfl rfl rfl rfl (congrFun stores _) rfl

theorem step (n : Session ι σ) (a : Action ι σ) : Passage n (.tend (.act a)) (n.step a) := by
  cases a with
  | register key handle =>
    rw [Session.step, Service.register]
    split <;> exact .idle rfl rfl rfl rfl rfl rfl
  | update peer id => exact .idle rfl rfl rfl rfl rfl rfl
  | receive peer tag =>
    rw [Session.step, Service.receive]
    split <;> exact .idle rfl rfl rfl rfl rfl rfl
  | take token fresh now => exact take n token fresh now
  | restore token id => exact restore n token id
  | work objects => exact .idle rfl rfl rfl rfl rfl rfl
  | put c =>
    rw [Session.step]
    cases stored : (n.service.store n.world).put c with
    | mk result store =>
      cases result with
      | ok _ =>
        exact .put (stored.trans (congrArg _ (n.world.stores_setStore _ _).symm)) rfl rfl
      | error e =>
        rw [Store.put_error stored]
        exact .idle rfl rfl rfl rfl (n.world.stores_setStore _ _) rfl

end Passage

theorem turn_passage [Checkpointable σ] [DecidableEq ι] {n : Session ι σ} {own : List Header}
    (only : n.store.HasOnly n.service.name own) (turn : Turn ι σ) :
    Passage n turn (n.turn turn) := by
  cases turn with
  | tend chore =>
    cases chore with
    | act a => exact .step n a
    | collect line => exact .collect only line
    | drop id => exact .drop n id
  | clear => exact .clear n
  | succeed gate retained => exact .succeeded rfl rfl rfl

end Session

end Rollback
