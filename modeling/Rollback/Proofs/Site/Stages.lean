import Rollback.Proofs.Service.Steps
import Rollback.Proofs.Site.Basic

/-!
# A command in stages

At each stage there is a way in which a command ends if nobody interferes, and going on does not
change it (`Stage.Advances.finish`). At the beginning that is what the command does at once, so an actor
that is left alone does in stages what it does in one step (`exists_carryOut`).
-/

namespace Rollback

namespace Service

variable {ι σ : Type} [DecidableEq ι] [Checkpointable σ] (s : Service ι) (w : World ι σ)

/-- What a service is from the first to the last. -/
def fixed (s : Service ι) : String × StoreId × GateId × Nat :=
  (s.name, s.storage, s.gate, s.retained)

omit [DecidableEq ι] in
theorem take_eq (draw : Draw) : s.take w s.gate draw.fresh draw.now =
    match Registry.takeAll w.objects s.registry.objects.toList with
    | .error e => (.error e, s, w)
    | .ok snapshots => s.deposit w (.ofList snapshots) draw := by
  simp only [take, ne_eq, not_true_eq_false, if_false, Registry.takeSnapshots]
  cases Registry.takeAll w.objects s.registry.objects.toList <;> rfl

theorem restore_eq (id : CheckpointId) : s.restore w s.gate id =
    match s.fetch w id with
    | .error e => (.error e, s, w)
    | .ok c =>
      match Registry.restoreAll c.snapshots w.objects s.registry.objects.toList with
      | (.error e, objects) => (.error e, s, { w with objects })
      | (.ok (), objects) => (.ok (), s.rewind id c.header, { w with objects }) := by
  simp only [restore, fetch, ne_eq, not_true_eq_false, if_false]
  cases (s.store w).get id with
  | error e => rfl
  | ok c =>
    by_cases own : c.header.owner = s.name
    · by_cases covered : s.registry.canRestore c
      · cases restored : Registry.restoreAll c.snapshots w.objects s.registry.objects.toList with
        | mk result objects =>
          cases result <;> simp only [own, not_true_eq_false, if_false, Registry.restore, covered,
            if_true, restored]
      · simp only [own, not_true_eq_false, if_false, Registry.restore, covered, Bool.false_eq_true]
    · simp only [own, not_false_eq_true, if_true]

/-! ## What no command changes -/

omit [DecidableEq ι] [Checkpointable σ] in
theorem deposit_fixed (snapshots : NameMap Snapshot) (draw : Draw) :
    (s.deposit w snapshots draw).2.1.fixed = s.fixed := by
  unfold deposit
  repeat' split
  all_goals rfl

omit [DecidableEq ι] in
theorem take_fixed (token : GateId) (fresh : CheckpointId) (now : Instant) :
    (s.take w token fresh now).2.1.fixed = s.fixed := by
  unfold take
  repeat' split
  all_goals rfl

theorem restore_fixed (token : GateId) (id : CheckpointId) :
    (s.restore w token id).2.1.fixed = s.fixed := by
  unfold restore
  repeat' split
  all_goals rfl

omit [DecidableEq ι] [Checkpointable σ] in
theorem deleteAll_fixed (deleted : Nat) (ids : List CheckpointId) :
    (s.deleteAll w deleted ids).2.1.fixed = s.fixed := by
  induction ids generalizing s w deleted with
  | nil => rfl
  | cons id rest ih =>
    unfold deleteAll
    split
    · rfl
    · exact ih _ _ _

end Service

theorem Command.run_fixed {ι σ : Type} [DecidableEq ι] [Checkpointable σ] (c : Command ι)
    (s : Service ι) (w : World ι σ) (token : GateId) (fresh : CheckpointId) (now : Instant) :
    (c.run s w token fresh now).2.1.fixed = s.fixed := by
  cases c with
  | register key handle =>
    change (s.register key handle).2.fixed = s.fixed
    unfold Service.register
    split <;> rfl
  | receive peer tag =>
    change (s.receive peer tag).fixed = s.fixed
    unfold Service.receive
    split <;> rfl
  | take => exact s.take_fixed w token fresh now
  | restore id => exact s.restore_fixed w token id
  | request r =>
    simp only [run, Service.request]
    have kept := s.restore_fixed w token r.checkpoint
    split <;> rename_i restored <;> rwa [restored] at kept
  | collect line =>
    simp only [run, Service.collect]
    repeat' split
    all_goals first | rfl | exact s.deleteAll_fixed w 0 _
  | clear =>
    simp only [run, Service.clear]
    split <;> rfl
  | update _ _ | notice _ _ | line _ _ => rfl

/-! ## Gates do not matter -/

/-- What has come out of a step, with other gates. -/
def World.regate {ι σ α : Type} (gates : GateId → Gate Ticket) (x : α × Service ι × World ι σ) :
    α × Service ι × World ι σ :=
  (x.1, x.2.1, { x.2.2 with gates })

section Gates

variable {ι σ : Type} (s : Service ι) (w : World ι σ) (gates : GateId → Gate Ticket)

theorem Service.store_gates : s.store { w with gates } = s.store w := rfl

theorem Service.deposit_regate (snapshots : NameMap Snapshot) (draw : Draw) :
    s.deposit { w with gates } snapshots draw =
      World.regate gates (s.deposit w snapshots draw) := by
  simp only [Service.deposit, Service.store_gates]
  repeat' split
  all_goals rfl

theorem Service.deleteAll_regate (deleted : Nat) (ids : List CheckpointId) :
    s.deleteAll { w with gates } deleted ids = World.regate gates (s.deleteAll w deleted ids) := by
  induction ids generalizing s w deleted with
  | nil => rfl
  | cons id rest ih =>
    simp only [deleteAll, store_gates]
    split
    · rfl
    · exact ih _ (w.setStore s.storage _) _

variable [DecidableEq ι] [Checkpointable σ]

omit [DecidableEq ι] in
theorem Service.take_regate (token : GateId) (fresh : CheckpointId) (now : Instant) :
    s.take { w with gates } token fresh now = World.regate gates (s.take w token fresh now) := by
  simp only [take, store_gates]
  repeat' split
  all_goals rfl

theorem Service.restore_regate (token : GateId) (id : CheckpointId) :
    s.restore { w with gates } token id = World.regate gates (s.restore w token id) := by
  simp only [restore, store_gates]
  repeat' split
  all_goals rfl

/-- Nothing that a command does depends on who stands at a gate. -/
theorem Command.run_regate (c : Command ι) (token : GateId) (fresh : CheckpointId) (now : Instant) :
    c.run s { w with gates } token fresh now =
      World.regate gates (c.run s w token fresh now) := by
  cases c with
  | take =>
    rw [run, s.take_regate]
    rfl
  | restore id =>
    rw [run, s.restore_regate]
    rfl
  | request r =>
    rw [run, Service.request, s.restore_regate, run, Service.request]
    obtain ⟨result, s', w'⟩ := s.restore w token r.checkpoint
    cases result <;> rfl
  | collect line =>
    simp only [run, Service.collect, Service.store_gates]
    split
    · rfl
    · split
      · rfl
      · split
        · rfl
        · rw [s.deleteAll_regate]
          rfl
  | clear =>
    simp only [run, Service.clear, Service.store_gates]
    split <;> rfl
  | register _ _ | update _ _ | receive _ _ | notice _ _ | line _ _ => rfl

end Gates

/-- The checkpoint that is to be restored. -/
def Command.target? {ι : Type} : Command ι → Option CheckpointId
  | restore id => some id
  | request r => some r.checkpoint
  | _ => none

namespace Site

variable {ι σ : Type} [DecidableEq ι] [Checkpointable σ]

namespace Stage

/-- How a command ends if nobody interferes: its result and what is left behind. -/
def finish (c : Command ι) (draw : Draw) (s : Service ι) (w : World ι σ) :
    Stage ι → Outcome Reply × Service ι × World ι σ
  | begun => c.run s w s.gate draw.fresh draw.now
  | capturing done left =>
    match Registry.takeAll w.objects left with
    | .error e => (.error e, s, w)
    | .ok more =>
      let (result, s, w) := s.deposit w (.ofList (done ++ more)) draw
      (result.map .taken, s, w)
  | overwriting id k left =>
    match Registry.restoreAll k.snapshots w.objects left with
    | (.error e, objects) => (.error e, s, { w with objects })
    | (.ok (), objects) => (.ok (c.restored s), s.rewind id k.header, { w with objects })
  | performed result | published result | released result => (result, s, w)

variable {c : Command ι} {draw : Draw} {s s' : Service ι} {w w' : World ι σ} {stage stage' : Stage ι}

/-- A restore loads the checkpoint and overwrites all objects. -/
theorem run_target {id : CheckpointId} (target : c.target? = some id) :
    c.run s w s.gate draw.fresh draw.now =
      match s.fetch w id with
      | .error e => (.error e, s, w)
      | .ok k => (overwriting id k s.registry.objects.toList).finish c draw s w := by
  cases c with
  | restore _ =>
    cases target
    rw [Command.run, Service.restore_eq]
    cases s.fetch w id with
    | error e => rfl
    | ok k =>
      simp only [finish]
      cases Registry.restoreAll k.snapshots w.objects s.registry.objects.toList with
      | mk result objects => cases result <;> rfl
  | request r =>
    cases target
    rw [Command.run, Service.request, Service.restore_eq]
    cases s.fetch w r.checkpoint with
    | error e => rfl
    | ok k =>
      simp only [finish]
      cases Registry.restoreAll k.snapshots w.objects s.registry.objects.toList with
      | mk result objects => cases result <;> rfl
  | register _ _ | update _ _ | receive _ _ | take | notice _ _ | line _ _ | collect _ | clear =>
    cases target

/-- What a command that is not yet performed does next. -/
inductive Advances (c : Command ι) (draw : Draw) (s : Service ι) (w : World ι σ) :
    Stage ι → Stage ι → Service ι → World ι σ → Prop
  | direct {result : Outcome Reply} {s' : Service ι} {w' : World ι σ} (free : c.pauses = false)
      (runs : c.run s w s.gate draw.fresh draw.now = (result, s', w')) :
      Advances c draw s w begun (performed result) s' w'
  | capture (takes : c = .take) :
      Advances c draw s w begun (capturing [] s.registry.objects.toList) s w
  | snap {key : String} {handle : ι} {snapshot : Snapshot} {done : List (String × Snapshot)}
      {left : List (String × ι)} (took : Snapshot.take key (w.objects handle) = .ok snapshot) :
      Advances c draw s w (capturing done ((key, handle) :: left))
        (capturing (done ++ [(key, snapshot)]) left) s w
  | fail {key : String} {handle : ι} {e : Error} {done : List (String × Snapshot)}
      {left : List (String × ι)} (took : Snapshot.take key (w.objects handle) = .error e) :
      Advances c draw s w (capturing done ((key, handle) :: left)) (performed (.error e)) s w
  | store {result : Outcome CheckpointId} {s' : Service ι} {w' : World ι σ}
      {done : List (String × Snapshot)}
      (stored : s.deposit w (.ofList done) draw = (result, s', w')) :
      Advances c draw s w (capturing done []) (performed (result.map .taken)) s' w'
  | refuse {id : CheckpointId} {e : Error} (target : c.target? = some id)
      (fetched : s.fetch w id = .error e) : Advances c draw s w begun (performed (.error e)) s w
  | load {id : CheckpointId} {k : Checkpoint} (target : c.target? = some id)
      (fetched : s.fetch w id = .ok k) :
      Advances c draw s w begun (overwriting id k s.registry.objects.toList) s w
  | miss {id : CheckpointId} {k : Checkpoint} {key : String} {handle : ι}
      {left : List (String × ι)} (found : k.snapshots[key]? = none) :
      Advances c draw s w (overwriting id k ((key, handle) :: left))
        (performed (.error (.snapshotGone key))) s w
  | restore {id : CheckpointId} {k : Checkpoint} {key : String} {handle : ι}
      {left : List (String × ι)} {snapshot : Snapshot} {object : σ}
      (found : k.snapshots[key]? = some snapshot)
      (restored : snapshot.restoreInto (w.objects handle) = (.ok (), object)) :
      Advances c draw s w (overwriting id k ((key, handle) :: left)) (overwriting id k left) s
        (w.setObject handle object)
  | spoil {id : CheckpointId} {k : Checkpoint} {key : String} {handle : ι}
      {left : List (String × ι)} {snapshot : Snapshot} {object : σ} {e : Error}
      (found : k.snapshots[key]? = some snapshot)
      (restored : snapshot.restoreInto (w.objects handle) = (.error e, object)) :
      Advances c draw s w (overwriting id k ((key, handle) :: left))
        (performed (.error (.objectRefused key e))) s (w.setObject handle object)
  | rewind {id : CheckpointId} {k : Checkpoint} :
      Advances c draw s w (overwriting id k []) (performed (.ok (c.restored s)))
        (s.rewind id k.header) w

/-- The result, once the command is performed. -/
def result? : Stage ι → Option (Outcome Reply)
  | performed result | published result | released result => some result
  | _ => none

theorem advances_of_next (stepped : stage.next c draw s w = (stage', s', w'))
    (under : stage.result? = none) : Advances c draw s w stage stage' s' w' := by
  cases stage with
  | begun =>
    cases c with
    | take =>
      cases stepped
      exact .capture rfl
    | restore id =>
      rw [next, load] at stepped
      cases fetched : s.fetch w id with
      | error e =>
        rw [fetched] at stepped
        cases stepped
        exact .refuse rfl fetched
      | ok k =>
        rw [fetched] at stepped
        cases stepped
        exact .load rfl fetched
    | request r =>
      rw [next, load] at stepped
      cases fetched : s.fetch w r.checkpoint with
      | error e =>
        rw [fetched] at stepped
        cases stepped
        exact .refuse rfl fetched
      | ok k =>
        rw [fetched] at stepped
        cases stepped
        exact .load rfl fetched
    | register _ _ | update _ _ | receive _ _ | notice _ _ | line _ _ | collect _ | clear =>
      cases stepped
      exact .direct rfl rfl
  | capturing done left =>
    cases left with
    | nil =>
      cases stepped
      exact .store rfl
    | cons first left =>
      rw [next] at stepped
      split at stepped <;> rename_i took <;> cases stepped
      · exact .snap took
      · exact .fail took
  | overwriting id k left =>
    cases left with
    | nil =>
      cases stepped
      exact .rewind
    | cons first left =>
      rw [next] at stepped
      split at stepped
      · rename_i found
        cases stepped
        exact .miss found
      · rename_i found
        split at stepped <;> rename_i restored <;> cases stepped
        · exact .restore found restored
        · exact .spoil found restored
  | performed _ | published _ | released _ => contradiction

def isOverwriting : Stage ι → Bool
  | overwriting _ _ _ => true
  | _ => false

/-- Only who takes a checkpoint captures objects, and only who restores one overwrites them with it. -/
def Suits (c : Command ι) : Stage ι → Prop
  | capturing _ _ => c = .take
  | overwriting id _ _ => c.target? = some id
  | _ => True

/-- How far a command is from its end: no stage is passed twice, and the objects get fewer. -/
def rank : Stage ι → Nat × Nat
  | begun => (5, 0)
  | capturing _ left | overwriting _ _ left => (4, left.length)
  | performed _ => (3, 0)
  | published _ => (2, 0)
  | released _ => (1, 0)

omit [DecidableEq ι] [Checkpointable σ] in
theorem begun_of_free (free : c.pauses = false) (suits : stage.Suits c)
    (under : stage.result? = none) : stage = begun := by
  cases stage with
  | begun => rfl
  | capturing _ _ =>
    cases suits
    contradiction
  | overwriting _ _ _ => cases c <;> contradiction
  | performed _ | published _ | released _ => contradiction

namespace Advances

variable (advances : Advances c draw s w stage stage' s' w')

include advances

theorem under : stage.result? = none := by
  cases advances <;> rfl

/-- To go on does not change how the command ends. -/
theorem finish : stage'.finish c draw s' w' = stage.finish c draw s w := by
  cases advances with
  | direct _ runs => exact runs.symm
  | capture takes =>
    simp only [Stage.finish, takes, Command.run, Service.take_eq, List.nil_append]
    cases Registry.takeAll w.objects s.registry.objects.toList <;> rfl
  | snap took =>
    simp only [Stage.finish, Registry.takeAll, took, bind, Except.bind, pure, Except.pure]
    cases Registry.takeAll w.objects _ <;> simp
  | fail took => simp only [Stage.finish, Registry.takeAll, took, bind, Except.bind]
  | store stored => simp only [Stage.finish, Registry.takeAll, List.append_nil, stored]
  | refuse target fetched =>
    refine ((run_target target).trans ?_).symm
    rw [fetched]
    rfl
  | load target fetched =>
    refine ((run_target target).trans ?_).symm
    rw [fetched]
  | miss found => simp only [Stage.finish, Registry.restoreAll, found]
  | restore found restored =>
    simp only [Stage.finish, Registry.restoreAll, found, restored]
    rfl
  | spoil found restored =>
    simp only [Stage.finish, Registry.restoreAll, found, restored]
    rfl
  | rewind => rfl

theorem fixed : s'.fixed = s.fixed := by
  cases advances with
  | direct _ runs =>
    have kept := c.run_fixed s w s.gate draw.fresh draw.now
    rwa [runs] at kept
  | @store _ _ _ done stored =>
    have kept := s.deposit_fixed w (.ofList done) draw
    rwa [stored] at kept
  | capture _ | snap _ | fail _ | refuse _ _ | load _ _ | miss _ | restore _ _ | spoil _ _
  | rewind => rfl

theorem gates : w'.gates = w.gates := by
  cases advances with
  | direct _ runs =>
    have kept := c.run_regate s w w.gates s.gate draw.fresh draw.now
    exact congrArg (·.2.2.gates) (runs.symm.trans kept)
  | @store _ _ _ done stored =>
    have kept := s.deposit_regate w w.gates (.ofList done) draw
    exact congrArg (·.2.2.gates) (stored.symm.trans kept)
  | capture _ | snap _ | fail _ | refuse _ _ | load _ _ | miss _ | restore _ _ | spoil _ _
  | rewind => rfl

theorem suits (suits : stage.Suits c) : stage'.Suits c := by
  cases advances with
  | capture takes => exact takes
  | load target _ => exact target
  | snap _ | restore _ _ => exact suits
  | direct _ _ | fail _ | store _ | refuse _ _ | miss _ | spoil _ _ | rewind => trivial

/-- Until a command that stops all work is performed, it changes nothing but objects, and those only
when it overwrites them. -/
theorem same (under : stage'.result? = none) : s' = s ∧ w'.stores = w.stores ∧
    (stage'.isOverwriting = true ∨ stage.isOverwriting = false ∧ w'.objects = w.objects) := by
  cases advances with
  | capture _ | snap _ => exact ⟨rfl, rfl, Or.inr ⟨rfl, rfl⟩⟩
  | load _ _ | restore _ _ => exact ⟨rfl, rfl, Or.inl rfl⟩
  | direct _ _ | fail _ | store _ | refuse _ _ | miss _ | spoil _ _ | rewind => contradiction

theorem rank_lt : Prod.Lex (· < ·) (· < ·) stage'.rank stage.rank := by
  cases advances with
  | snap _ | restore _ _ => exact .right _ (Nat.lt_succ_self _)
  | direct _ _ | capture _ | fail _ | store _ | refuse _ _ | load _ _ | miss _ | spoil _ _ | rewind =>
    exact .left _ _ (by decide)

theorem performed_or_under : stage'.result? = none ∨ ∃ result, stage' = performed result := by
  cases advances <;> simp [result?]

/-- What need not stop other work is done in one step. -/
theorem runs_of_free (free : c.pauses = false) (suits : stage.Suits c) : stage = begun ∧
    ∃ result, stage' = performed result ∧
      c.run s w s.gate draw.fresh draw.now = (result, s', w') := by
  obtain rfl := begun_of_free free suits advances.under
  cases advances with
  | direct _ runs => exact ⟨rfl, _, rfl, runs⟩
  | capture takes =>
    rw [takes] at free
    contradiction
  | refuse target _ | load target _ => cases c <;> contradiction

end Advances

end Stage

variable {p q : Site ι σ} {t : Task ι}

theorem carryOn_under (under : t.stage.result? = none) {stage : Stage ι} {s : Service ι}
    {w : World ι σ}
    (stepped : t.stage.next t.call.command t.draw p.actor.service p.world = (stage, s, w)) :
    p.carryOn t = { p with
      actor := { p.actor with service := s }
      world := w
      task := some { t with stage }
      log := p.log ++ t.entries stage } := by
  unfold carryOn
  split
  · rename_i done
    rw [done] at under
    cases under
  · rename_i done
    rw [done] at under
    cases under
  · rename_i done
    rw [done] at under
    cases under
  · rw [stepped]

theorem run?_advance (at_ : p.task = some t) (moves : List (Move ι σ)) :
    p.run? (.advance :: moves) = (p.note (p.carryOn t)).run? moves := by
  simp [run?, step?, act?, at_]

/-- Left alone, an actor performs the command that it has begun. -/
theorem exists_perform (p : Site ι σ) (t : Task ι) (at_ : p.task = some t)
    (under : t.stage.result? = none) : ∃ n q result service,
      p.run? (List.replicate n .advance) = some q ∧
      q.task = some { t with stage := .performed result } ∧ q.actor = { p.actor with service } ∧
      (result, service, q.world) =
        t.stage.finish t.call.command t.draw p.actor.service p.world := by
  obtain ⟨stage, s, w, stepped⟩ : ∃ stage s w,
      t.stage.next t.call.command t.draw p.actor.service p.world = (stage, s, w) := ⟨_, _, _, rfl⟩
  have after := carryOn_under under stepped
  have advances := Stage.advances_of_next stepped under
  obtain more | ⟨result, rfl⟩ := advances.performed_or_under
  · obtain ⟨n, q, result, service, runs, stands, same, ends⟩ :=
      exists_perform (p.note (p.carryOn t)) { t with stage } (by rw [after]; rfl) more
    refine ⟨n + 1, q, result, service, ?_, stands, ?_, ?_⟩
    · rw [List.replicate_succ, run?_advance at_, runs]
    · rw [same, after]
      rfl
    · rw [ends, after]
      exact advances.finish
  · refine ⟨1, p.note (p.carryOn t), result, s, run?_advance at_ [], ?_, ?_, ?_⟩
    · rw [after]
      rfl
    · rw [after]
      rfl
    · rw [after, ← advances.finish]
      rfl
termination_by t.stage.rank
decreasing_by exact advances.rank_lt

theorem run?_append (p : Site ι σ) (front back : List (Move ι σ)) :
    p.run? (front ++ back) = (p.run? front).bind fun q => q.run? back := List.foldlM_append

/-- What is left of a command that was performed: to publish, to give the gate back, to answer. -/
theorem run?_performed {result : Outcome Reply}
    (at_ : p.task = some { t with stage := .performed result }) : ∃ q,
      p.run? [.advance, .advance, .advance] = some q ∧ q.task = none ∧
      (q.actor, q.world) =
        let actor := { p.actor with
          published := if t.call.command.moves then p.actor.service.chainEnd else p.actor.published }
        (if t.call.command.answers then actor.reply t.call.ticket result else actor,
          actor.letGo p.world t.call) := by
  let published := p.note (p.carryOn { t with stage := .performed result })
  let released := published.note (published.carryOn { t with stage := .published result })
  refine ⟨released.note (released.carryOn { t with stage := .released result }), ?_, rfl, rfl⟩
  exact (run?_advance at_ _).trans
    ((run?_advance (p := published) rfl _).trans (run?_advance (p := released) rfl []))

/-- Left alone, an actor does in stages what it does in one step. -/
theorem exists_carryOut {c : Call ι} {rest : List (Call ι)} (idle : p.task = none)
    (waits : p.actor.queue = c :: rest) (draw : Draw) : ∃ n q,
      p.run? (.begin draw :: List.replicate n .advance) = some q ∧ q.task = none ∧
      p.actor.handle? p.world draw.fresh draw.now = some (q.actor, q.world) := by
  let begun : Site ι σ := p.note { p with
    actor := { p.actor with queue := rest }
    task := some ⟨c, draw, .begun⟩ }
  have begins : p.step? (.begin draw) = some begun := by simp [step?, act?, idle, waits, begun]
  obtain ⟨n, done, result, service, runs, stands, same, ends⟩ :=
    exists_perform begun ⟨c, draw, .begun⟩ rfl rfl
  obtain ⟨q, answers, free, left⟩ := run?_performed stands
  refine ⟨n + 3, q, ?_, free, ?_⟩
  · have moves : (Move.begin draw :: List.replicate (n + 3) .advance : List (Move ι σ)) =
        [.begin draw] ++ (List.replicate n .advance ++ [.advance, .advance, .advance]) := by
      rw [← List.replicate_append_replicate]
      rfl
    have first : p.run? [.begin draw] = some begun := by simp [run?, begins]
    rw [moves, run?_append, first, Option.bind_some, run?_append, runs, Option.bind_some, answers]
  · have performs : c.command.run p.actor.service p.world p.actor.service.gate draw.fresh draw.now =
        (result, service, done.world) := ends.symm
    rw [Actor.handle?, waits, left, same]
    simp only [performs]
    rfl

end Site

end Rollback
