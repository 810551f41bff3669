import Rollback.Graph
import Rollback.Recovery.Line

/-!
# Chronicles

A chronicle has a history for each instance of the graph and for each owner of a checkpoint: the
instance's checkpoints from the oldest to the newest. It accepts valid headers with distinct ids
only.
-/

namespace Rollback

/-- The histories of all instances, and the graph that connects them. -/
structure Chronicle where
  histories : NameMap (List Header)
  graph : Graph

namespace Chronicle

/-- Each header has to be valid, and none may repeat the id of one in front of it. -/
def accept (seen : List CheckpointId) : List Header → Outcome Unit
  | [] => .ok ()
  | h :: rest => do
    h.validate
    if h.id ∈ seen then .error (.repeatedCheckpoint h.id) else accept (h.id :: seen) rest

theorem accept_eq_ok_iff {seen : List CheckpointId} {headers : List Header} :
    accept seen headers = .ok () ↔
      (∀ h ∈ headers, h.validate = .ok () ∧ h.id ∉ seen) ∧ (headers.map (·.id)).Nodup := by
  induction headers generalizing seen with
  | nil => simp [accept]
  | cons h rest ih =>
    cases hv : h.validate with
    | error e => simp [accept, hv, bind, Except.bind]
    | ok u =>
      by_cases hs : h.id ∈ seen
      · simp [accept, hv, hs, bind, Except.bind]
      · simp only [accept, hv, hs, bind, Except.bind, if_false, ih, List.mem_cons, List.map_cons,
          List.nodup_cons, List.mem_map, forall_eq_or_imp]
        grind

def sorted (headers : List Header) : List Header :=
  headers.mergeSort fun a b => (a.age b).isLE

theorem mem_sorted {headers : List Header} {h : Header} : h ∈ sorted headers ↔ h ∈ headers := by
  simp [sorted]

/-- Every instance of the graph and every owner. -/
def instances (headers : List Header) (graph : Graph) : NameSet :=
  headers.foldl (fun all h => all.insert h.owner) graph.names

def ofHeaders (headers : List Header) (graph : Graph) : Outcome Chronicle := do
  accept [] headers
  let ordered := sorted headers
  let history (name : String) := ordered.filter (·.owner = name)
  return ⟨.ofList ((instances headers graph).toList.map fun name => (name, history name)), graph⟩

/-- The instances with a history, in ascending order. -/
def names (c : Chronicle) : List String := c.histories.keys

/-- The checkpoints of an instance, oldest first. -/
def history (c : Chronicle) (name : String) : List Header := c.histories[name]?.getD []

def latest (c : Chronicle) (name : String) : Option Header := (c.history name).getLast?

/-- The checkpoints that are older than the line's selection, by instance. -/
def superseded (c : Chronicle) (line : Line) : List Header :=
  line.selections.toList.flatMap fun (name, id) =>
    match (c.history name).findIdx? (·.id = id) with
    | some position => (c.history name).take position
    | none => []

end Chronicle

end Rollback
