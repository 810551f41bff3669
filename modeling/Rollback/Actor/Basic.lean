import Rollback.Actor.Command

/-!
# Actors

An actor runs the service of one instance. It takes commands from a queue with a bounded number of
places and carries them out one after the other; senders wait for a place first come first served.
A call that needs the gate takes it before it is sent, and the gate goes back when the command has
been carried out, so the actor itself never waits for the gate. After each command that can move
the chain of own checkpoints its two newest are published, and anybody reads them without a call.

A call goes through three stages: it waits for the gate, then for a place, then for its turn. Each
stage is left by a step of its own.
-/

namespace Rollback

/-- A command on its way, with the ticket of the caller. -/
structure Call (ι : Type) where
  ticket : Ticket
  command : Command ι

/-- The newest own checkpoint and the one before it, nil where there is none. -/
structure ChainEnd where
  last : CheckpointId
  secondLast : CheckpointId
  deriving DecidableEq, Repr

def Service.chainEnd {ι : Type} (s : Service ι) : ChainEnd := ⟨s.last, s.secondLast⟩

/-- A running instance. -/
structure Actor (ι : Type) where
  service : Service ι
  /-- How many commands the queue has places for. -/
  capacity : Nat
  running : Bool
  published : ChainEnd
  /-- Calls that wait for the gate. -/
  atGate : List (Call ι)
  /-- Calls that wait for a place in the queue, first come first. -/
  sending : List (Call ι)
  queue : List (Call ι)
  replies : List (Ticket × Outcome Reply)

namespace Actor

variable {ι σ : Type}

/-- Starts a service; the queue has at least one place. -/
def start (service : Service ι) (buffer : Nat) : Actor ι where
  service := service
  capacity := max buffer 1
  running := true
  published := service.chainEnd
  atGate := []
  sending := []
  queue := []
  replies := []

def tag? (a : Actor ι) : Option DependencyTag :=
  if a.published.last.isNil then none else some ⟨a.published.last⟩

def reply (a : Actor ι) (t : Ticket) (result : Outcome Reply) : Actor ι :=
  { a with replies := a.replies ++ [(t, result)] }

def reply? (a : Actor ι) (t : Ticket) : Option (Outcome Reply) := a.replies.lookup t

/-- The gate goes back, if the call holds it. -/
def letGo (a : Actor ι) (w : World ι σ) (c : Call ι) : World ι σ :=
  if c.command.pauses then w.release a.service.gate c.ticket else w

/-- Nobody is there to carry out the command. -/
def refuse (a : Actor ι) (w : World ι σ) (c : Call ι) : Actor ι × World ι σ :=
  (a.reply c.ticket (.error (.closed a.service.name)), a.letGo w c)

/-- Sends a command: it waits for a place in the queue. -/
def send (a : Actor ι) (w : World ι σ) (c : Call ι) : Actor ι × World ι σ :=
  if a.running then ({ a with sending := a.sending ++ [c] }, w) else a.refuse w c

/-- Starts a call: it waits for the gate if it needs it. -/
def call (a : Actor ι) (w : World ι σ) (c : Call ι) : Actor ι × World ι σ :=
  if c.command.pauses then
    ({ a with atGate := a.atGate ++ [c] }, w.enter a.service.gate c.ticket)
  else a.send w c

def hasGate (a : Actor ι) (w : World ι σ) (c : Call ι) : Bool :=
  (w.gates a.service.gate).holder = some c.ticket

/-- The call that has got the gate is sent. -/
def pass? (a : Actor ι) (w : World ι σ) : Option (Actor ι × World ι σ) :=
  (a.atGate.find? (a.hasGate w)).map fun c =>
    send { a with atGate := a.atGate.filter (·.ticket ≠ c.ticket) } w c

/-- The first sender takes a place in the queue, if there is one. -/
def accept? (a : Actor ι) : Option (Actor ι) :=
  match a.sending with
  | c :: rest =>
    if a.queue.length < a.capacity then
      let a := { a with sending := rest, queue := a.queue ++ [c] }
      some (if c.command.answers then a else a.reply c.ticket (.ok .done))
    else none
  | [] => none

variable [DecidableEq ι] [Checkpointable σ]

/-- The first command of the queue is carried out. -/
def handle? (a : Actor ι) (w : World ι σ) (fresh : CheckpointId) (now : Instant) :
    Option (Actor ι × World ι σ) :=
  match a.queue with
  | c :: rest =>
    let (result, service, w) := c.command.run a.service w a.service.gate fresh now
    let a := { a with
      service
      queue := rest
      published := if c.command.moves then service.chainEnd else a.published }
    some (if c.command.answers then a.reply c.ticket result else a, a.letGo w c)
  | [] => none

def refuseAll (a : Actor ι) (w : World ι σ) : List (Call ι) → Actor ι × World ι σ
  | [] => (a, w)
  | c :: rest =>
    let (a, w) := a.refuse w c
    refuseAll a w rest

/-- Stops the actor: commands that were not carried out are refused. -/
def abort (a : Actor ι) (w : World ι σ) : Actor ι × World ι σ :=
  let left := (a.queue ++ a.sending).filter fun c => (a.reply? c.ticket).isNone
  refuseAll { a with running := false, queue := [], sending := [] } w left

/-- One step that needs nobody else. -/
def step? (a : Actor ι) (w : World ι σ) (fresh : CheckpointId) (now : Instant) :
    Option (Actor ι × World ι σ) :=
  (a.handle? w fresh now).or ((a.accept?.map fun a => (a, w)).or (a.pass? w))

/-- How many steps the calls that are under way can take at most. -/
def load (a : Actor ι) : Nat := 3 * a.atGate.length + 2 * a.sending.length + a.queue.length

end Actor

end Rollback
