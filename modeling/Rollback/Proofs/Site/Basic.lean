import Rollback.Deployment

/-!
# Sites

A site is one running instance with all who deal with it at the same time. Units of work come to the
gate, change objects and ask the actor while they hold it, and leave. Other clients call the actor;
what they call for may need the gate as well. The actor carries out one command after the other, and
while it does so, object after object, everybody else goes on. A move is what one of them does next,
and the log holds what was done under the gate and who got it in which order.
-/

namespace Rollback

namespace Site

/-- How far an actor is with a command. -/
inductive Stage (ι : Type) where
  | begun
  /-- Snapshots of some objects were taken; the others are left. -/
  | capturing (done : List (String × Snapshot)) (left : List (String × ι))
  /-- Some objects were overwritten from a checkpoint; the others are left. -/
  | overwriting (id : CheckpointId) (c : Checkpoint) (left : List (String × ι))
  | performed (result : Outcome Reply)
  /-- The chain end was published. -/
  | published (result : Outcome Reply)
  /-- The gate was given back; only the answer is left. -/
  | released (result : Outcome Reply)

/-- A command that is carried out, and what it may draw on. -/
structure Task (ι : Type) where
  call : Call ι
  draw : Draw
  stage : Stage ι

/-- What is done by the holder of the gate. -/
inductive Deed (ι σ : Type) where
  | changed (handle : ι) (f : σ → σ)
  /-- The actor was told of others. -/
  | told (c : Command ι)
  | operated (c : Command ι) (draw : Draw) (result : Outcome Reply)

inductive Entry (ι σ : Type) where
  /-- Somebody got the gate. -/
  | acquired (t : Ticket)
  | did (t : Ticket) (d : Deed ι σ)

/-- What somebody does next. -/
inductive Move (ι σ : Type) where
  /-- A unit of work comes to the gate. -/
  | enter
  | change (unit : Ticket) (handle : ι) (f : σ → σ)
  /-- A unit of work calls the actor and waits for the call to return. -/
  | ask (unit : Ticket) (c : Command ι)
  /-- A unit of work gives the gate back. -/
  | leave (unit : Ticket)
  /-- Another client calls the actor. -/
  | call (c : Command ι)
  /-- The call that has got the gate is sent. -/
  | pass
  /-- The first sender takes a place in the queue. -/
  | accept
  /-- The actor takes the first command of the queue. -/
  | begin (draw : Draw)
  /-- The actor goes on with its command. -/
  | advance

end Site

/-- A running instance with all who deal with it. -/
structure Site (ι σ : Type) where
  actor : Actor ι
  world : World ι σ
  /-- The command that is carried out. -/
  task : Option (Site.Task ι)
  /-- The units of work that hold the gate or wait for it. -/
  units : List Ticket
  /-- The calls that were made, each with the unit of work that waits for it to return. -/
  calls : List (Ticket × Option Ticket)
  /-- How many tickets were given out. -/
  tickets : Nat
  log : List (Site.Entry ι σ)

/-! ## Carrying out a command -/

namespace Service

variable {ι σ : Type}

/-- Stores a checkpoint with the snapshots that were taken. -/
def deposit (s : Service ι) (w : World ι σ) (snapshots : NameMap Snapshot) (draw : Draw) :
    Outcome CheckpointId × Service ι × World ι σ :=
  match Header.new draw.fresh s.name (s.nextTime draw.now) s.last s.tracker.current with
  | .error e => (.error e, s, w)
  | .ok header =>
    match (s.store w).put ⟨header, snapshots⟩ with
    | (.error e, store) => (.error e, s, w.setStore s.storage store)
    | (.ok (), store) =>
      (.ok draw.fresh, s.remember draw.fresh header.createdAt, w.setStore s.storage store)

/-- The checkpoint from which all objects can be overwritten. -/
def fetch (s : Service ι) (w : World ι σ) (id : CheckpointId) : Outcome Checkpoint :=
  match (s.store w).get id with
  | .error e => .error e
  | .ok c =>
    if c.header.owner ≠ s.name then .error (.ownedBy id c.header.owner s.name)
    else if s.registry.canRestore c then .ok c
    else .error (.objectsMissing c.id (s.registry.missing c))

end Service

/-- What is answered when all objects were overwritten. -/
def Command.restored {ι : Type} (c : Command ι) (s : Service ι) : Reply :=
  match c with
  | .request r => .completion ⟨s.name, r.checkpoint⟩
  | _ => .done

namespace Site

variable {ι σ : Type} [DecidableEq ι] [Checkpointable σ]

namespace Stage

def load (s : Service ι) (w : World ι σ) (id : CheckpointId) : Stage ι :=
  match s.fetch w id with
  | .error e => .performed (.error e)
  | .ok c => .overwriting id c s.registry.objects.toList

/-- One step of a command that is not yet performed: one object at a time, what is left in the end,
and the whole of a command that touches no object. -/
def next (c : Command ι) (draw : Draw) (s : Service ι) (w : World ι σ) :
    Stage ι → Stage ι × Service ι × World ι σ
  | begun =>
    match c with
    | .take => (capturing [] s.registry.objects.toList, s, w)
    | .restore id => (load s w id, s, w)
    | .request r => (load s w r.checkpoint, s, w)
    | c =>
      let (result, s, w) := c.run s w s.gate draw.fresh draw.now
      (performed result, s, w)
  | capturing done [] =>
    let (result, s, w) := s.deposit w (.ofList done) draw
    (performed (result.map .taken), s, w)
  | capturing done ((key, handle) :: left) =>
    match Snapshot.take key (w.objects handle) with
    | .ok snapshot => (capturing (done ++ [(key, snapshot)]) left, s, w)
    | .error e => (performed (.error e), s, w)
  | overwriting id k [] => (performed (.ok (c.restored s)), s.rewind id k.header, w)
  | overwriting id k ((key, handle) :: left) =>
    match k.snapshots[key]? with
    | none => (performed (.error (.snapshotGone key)), s, w)
    | some snapshot =>
      match snapshot.restoreInto (w.objects handle) with
      | (.ok (), object) => (overwriting id k left, s, w.setObject handle object)
      | (.error e, object) =>
        (performed (.error (.objectRefused key e)), s, w.setObject handle object)
  | stage => (stage, s, w)

end Stage

/-- What the log says of a task that has just come to a stage. -/
def Task.entries (t : Task ι) (stage : Stage ι) : List (Entry ι σ) :=
  match stage with
  | .performed result =>
    if t.call.command.pauses then [.did t.call.ticket (.operated t.call.command t.draw result)]
    else []
  | _ => []

/-- The actor goes on: it performs the command, publishes, gives the gate back and answers. -/
def carryOn (p : Site ι σ) (t : Task ι) : Site ι σ :=
  match t.stage with
  | .performed result => { p with
      actor := { p.actor with
        published := if t.call.command.moves then p.actor.service.chainEnd else p.actor.published }
      task := some { t with stage := .published result } }
  | .published result => { p with
      world := p.actor.letGo p.world t.call
      task := some { t with stage := .released result } }
  | .released result => { p with
      actor := if t.call.command.answers then p.actor.reply t.call.ticket result else p.actor
      task := none }
  | stage =>
    let (stage, service, world) := stage.next t.call.command t.draw p.actor.service p.world
    { p with
      actor := { p.actor with service }
      world
      task := some { t with stage }
      log := p.log ++ t.entries stage }

/-! ## Moves -/

/-- Who holds the gate. -/
def holder (p : Site ι σ) : Option Ticket := (p.world.gates p.actor.service.gate).holder

/-- Whether all calls of a unit of work have returned. -/
def answered (p : Site ι σ) (unit : Ticket) : Bool :=
  p.calls.all fun (t, caller) => caller ≠ some unit || (p.actor.reply? t).isSome

/-- What a move does, if it can be made. -/
def act? (p : Site ι σ) : Move ι σ → Option (Site ι σ)
  | .enter => some { p with
      world := p.world.enter p.actor.service.gate p.tickets
      units := p.units ++ [p.tickets]
      tickets := p.tickets + 1 }
  | .change unit handle f =>
    if unit ∈ p.units ∧ p.holder = some unit then
      some { p with
        world := p.world.setObject handle (f (p.world.objects handle))
        log := p.log ++ [.did unit (.changed handle f)] }
    else none
  | .ask unit c =>
    if unit ∈ p.units ∧ p.holder = some unit ∧ c.pauses = false then
      let (actor, world) := p.actor.call p.world ⟨p.tickets, c⟩
      some { p with
        actor
        world
        calls := p.calls ++ [(p.tickets, some unit)]
        tickets := p.tickets + 1
        log := p.log ++ [.did unit (.told c)] }
    else none
  | .leave unit =>
    if unit ∈ p.units ∧ p.holder = some unit ∧ p.answered unit = true then
      some { p with
        world := p.world.release p.actor.service.gate unit
        units := p.units.filter (· ≠ unit) }
    else none
  | .call c =>
    let (actor, world) := p.actor.call p.world ⟨p.tickets, c⟩
    some { p with
      actor
      world
      calls := p.calls ++ [(p.tickets, none)]
      tickets := p.tickets + 1 }
  | .pass => (p.actor.pass? p.world).map fun (actor, world) => { p with actor, world }
  | .accept => p.actor.accept?.map fun actor => { p with actor }
  | .begin draw =>
    match p.task, p.actor.queue with
    | none, c :: rest => some { p with
        actor := { p.actor with queue := rest }
        task := some ⟨c, draw, .begun⟩ }
    | _, _ => none
  | .advance => p.task.map p.carryOn

/-- What the log says when the gate has gone from one holder to another. -/
def acquisitions (before after : Option Ticket) : List (Entry ι σ) :=
  if after = before then [] else after.toList.map .acquired

/-- Logs who has got the gate in a move. -/
def note (before after : Site ι σ) : Site ι σ :=
  { after with log := after.log ++ acquisitions before.holder after.holder }

def step? (p : Site ι σ) (m : Move ι σ) : Option (Site ι σ) := (p.act? m).map p.note

def run? (p : Site ι σ) (moves : List (Move ι σ)) : Option (Site ι σ) := moves.foldlM step? p

/-- A service with a queue of commands, and nobody at its gate. -/
def start (service : Service ι) (buffer : Nat) (world : World ι σ) : Site ι σ where
  actor := .start service buffer
  world := world
  task := none
  units := []
  calls := []
  tickets := 0
  log := []

end Site

end Rollback
