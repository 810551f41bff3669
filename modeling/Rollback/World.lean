import Rollback.Gate
import Rollback.Registry
import Rollback.Store.Basic

/-!
# What instances share

Objects, stores and gates live outside of the instances, which only hold handles to them: operators
change the objects, several instances keep their checkpoints in one store, and an instance shares
its gate with the units of work that it processes.
-/

namespace Rollback

abbrev StoreId := Nat

abbrev GateId := Nat

/-- Who stands at a gate. -/
abbrev Ticket := Nat

/-- The shared objects, stores and gates by their handles. -/
structure World (ι σ : Type) where
  objects : Heap ι σ
  stores : StoreId → Store
  gates : GateId → Gate Ticket

namespace World

variable {ι σ : Type}

/-- Empty stores, free gates and no object of interest. -/
def initial [Inhabited σ] : World ι σ := ⟨fun _ => default, fun _ => default, fun _ => .free⟩

def setObject [DecidableEq ι] (w : World ι σ) (handle : ι) (object : σ) : World ι σ :=
  { w with objects := w.objects.set handle object }

def setStore (w : World ι σ) (id : StoreId) (store : Store) : World ι σ :=
  { w with stores := fun other => if other = id then store else w.stores other }

def setGate (w : World ι σ) (id : GateId) (gate : Gate Ticket) : World ι σ :=
  { w with gates := fun other => if other = id then gate else w.gates other }

def enter (w : World ι σ) (id : GateId) (t : Ticket) : World ι σ :=
  w.setGate id ((w.gates id).enter t)

def release (w : World ι σ) (id : GateId) (t : Ticket) : World ι σ :=
  w.setGate id ((w.gates id).release t)

end World

end Rollback
