import Rollback.Recovery.Chronicle

/-!
# The search for a recovery line

Each instance that takes part has a lane of candidates: its history from the oldest checkpoint to
the newest and, unless it failed or live state is not reused, its live state on top. A cursor
selects one candidate for each lane. The cursors start at the top and only move down: while a
candidate depends on a peer's checkpoint and the peer's own cursor is not above that checkpoint,
the candidate has consumed messages that the peer would not have sent, and the lane's cursor goes
to the next older one. A lane without an older candidate ends the search.
-/

namespace Rollback

/-- What an instance can go back to. -/
structure Lane where
  history : List Header
  /-- The dependencies of the live state, if it may be kept. -/
  live : Option Dependencies

/-- One state of an instance. -/
inductive Candidate where
  | stored (header : Header)
  | live (dependencies : Dependencies)

namespace Candidate

def dependencies : Candidate → Dependencies
  | stored header => header.dependencies
  | live dependencies => dependencies

/-- The checkpoint to restore; none for the live state. -/
def checkpoint? : Candidate → Option CheckpointId
  | stored header => some header.id
  | live _ => none

end Candidate

namespace Lane

/-- From the oldest to the newest, the live state last. -/
def candidates (lane : Lane) : List Candidate :=
  lane.history.map .stored ++ lane.live.toList.map .live

def position? (lane : Lane) (id : CheckpointId) : Option Nat :=
  lane.history.findIdx? (·.id = id)

def top (lane : Lane) : Nat := lane.candidates.length - 1

end Lane

/-- The lanes of the instances that take part. -/
abbrev Lanes := NameMap Lane

/-- The position of the selected candidate, by instance. -/
abbrev Cursors := NameMap Nat

namespace Lanes

/-- Whether a dependency on a checkpoint of a peer is met: the peer's selection is strictly newer.
A checkpoint that is not in the peer's history is older than all that the peer can select. -/
def meets (lanes : Lanes) (cursors : Cursors) (peer : String) (id : CheckpointId) : Bool :=
  match lanes[peer]?.bind (·.position? id) with
  | none => true
  | some position => position < cursors[peer]?.getD 0

/-- Whether the candidate at a position of an instance has all of its dependencies met. What an
instance records under its own name and the nil id ask for nothing. -/
def settled (lanes : Lanes) (cursors : Cursors) (name : String) (position : Nat) : Bool :=
  match lanes[name]?.bind (·.candidates[position]?) with
  | none => true
  | some candidate => candidate.dependencies.toList.all fun (peer, id) =>
    peer = name || id = .nil || meets lanes cursors peer id

/-- The newest settled candidate from a position downwards. -/
def descend (lanes : Lanes) (cursors : Cursors) (name : String) : Nat → Option Nat
  | 0 => if settled lanes cursors name 0 then some 0 else none
  | position + 1 =>
    if settled lanes cursors name (position + 1) then some (position + 1)
    else descend lanes cursors name position

theorem descend_eq_some_iff {lanes : Lanes} {cursors : Cursors} {name : String}
    {top position : Nat} :
    descend lanes cursors name top = some position ↔
      position ≤ top ∧ settled lanes cursors name position = true ∧
        ∀ q, position < q → q ≤ top → settled lanes cursors name q = false := by
  induction top with
  | zero => grind [descend]
  | succ top ih => grind [descend]

theorem descend_eq_none_iff {lanes : Lanes} {cursors : Cursors} {name : String} {top : Nat} :
    descend lanes cursors name top = none ↔
      ∀ q, q ≤ top → settled lanes cursors name q = false := by
  induction top with
  | zero => grind [descend]
  | succ top ih => grind [descend]

/-- Settles one instance against the cursors of the others. -/
def lower (lanes : Lanes) (cursors : Cursors) (name : String) : Outcome Cursors :=
  match descend lanes cursors name (cursors[name]?.getD 0) with
  | some position => .ok (cursors.insert name position)
  | none => .error (.noConsistentLine name)

/-- Settles the instances one after the other, in ascending order. -/
def round (lanes : Lanes) (cursors : Cursors) : Outcome Cursors :=
  lanes.keys.foldlM (lower lanes) cursors

def total (cursors : Cursors) : Nat :=
  cursors.toList.foldr (fun (_, position) all => position + all) 0

/-- Repeats the round until it moves no cursor. -/
def settle (lanes : Lanes) (cursors : Cursors) : Outcome Cursors :=
  match round lanes cursors with
  | .error e => .error e
  | .ok next => if total next < total cursors then settle lanes next else .ok next
  termination_by total cursors

/-- Every cursor on its lane's newest candidate. -/
def start (lanes : Lanes) : Cursors := lanes.map fun _ lane => lane.top

def line (lanes : Lanes) (cursors : Cursors) : Line where
  selections := .ofList (lanes.toList.filterMap fun (name, lane) => do
    let candidate ← lane.candidates[cursors[name]?.getD 0]?
    return (name, ← candidate.checkpoint?))

end Lanes

namespace Chronicle

/-- The live state stands on the instance's own newest checkpoint and on those of the instances
with an edge into it. -/
def liveDependencies (c : Chronicle) (name : String) : Dependencies :=
  let own : Dependencies := match c.latest name with
    | some top => (∅ : Dependencies).insert name top.id
    | none => ∅
  (c.graph.sources name).toList.foldl (fun d peer =>
    match c.latest peer with
    | some top => d.insert peer top.id
    | none => d) own

def lane (c : Chronicle) (failed : NameSet) (reuse : Bool) (name : String) : Lane where
  history := c.history name
  live := if reuse && name ∉ failed then some (c.liveDependencies name) else none

/-- The instances that take part: those with a history and those that failed. -/
def required (c : Chronicle) (failed : NameSet) : NameSet :=
  failed.toList.foldl .insert (.ofList c.names)

def lanes (c : Chronicle) (failed : NameSet) (reuse : Bool) : Lanes :=
  .ofList ((c.required failed).toList.map fun name => (name, c.lane failed reuse name))

/-- The newest consistent line after the given failures. Without reuse of live state every instance
starts from its newest checkpoint as if it had failed. -/
def recover (c : Chronicle) (failed : List String) (reuse : Bool := true) : Outcome Line :=
  let failed := NameSet.ofNames failed
  match (c.required failed).toList.find? fun name => (c.history name).isEmpty with
  | some name => .error (.missingCheckpoint name)
  | none => do
    let lanes := c.lanes failed reuse
    return lanes.line (← lanes.settle lanes.start)

end Chronicle

end Rollback
