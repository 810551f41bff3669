import Rollback.Proofs.Site.Order

/-!
# In which order things are done

Whatever is done, the holder of the gate does it. So what one ticket does stands together in the log,
between its turn at the gate and that of the next one, and nobody comes in between
(`Scheduled.serial`). A ticket stands for a whole unit of work, or for one operation (`Whole`).
-/

namespace Rollback.Site

variable {ι σ : Type}

/-! ## Turns at the gate -/

def Entry.acquirer? : Entry ι σ → Option Ticket
  | acquired t => some t
  | did _ _ => none

def Entry.deed? : Entry ι σ → Option (Deed ι σ)
  | acquired _ => none
  | did _ d => some d

def Entry.deedOf? (t : Ticket) : Entry ι σ → Option (Deed ι σ)
  | acquired _ => none
  | did u d => if u = t then some d else none

/-- Who has got the gate, in the order of time. -/
def order (log : List (Entry ι σ)) : List Ticket := log.filterMap Entry.acquirer?

/-- All that was done, in the order of time. -/
def done (log : List (Entry ι σ)) : List (Deed ι σ) := log.filterMap Entry.deed?

/-- What was done under one ticket. -/
def deeds (log : List (Entry ι σ)) (t : Ticket) : List (Deed ι σ) := log.filterMap (Entry.deedOf? t)

/-- One ticket after the other, as they got the gate, with all that was done under each of them. -/
def serial (log : List (Entry ι σ)) : List (Deed ι σ) := (order log).flatMap (deeds log)

@[simp] theorem acquisitions_self (holder : Option Ticket) :
    (acquisitions holder holder : List (Entry ι σ)) = [] := if_pos rfl

section Log

variable (log : List (Entry ι σ)) (t u : Ticket) (d : Deed ι σ)

@[simp] theorem order_acquired : order (log ++ [.acquired t]) = order log ++ [t] := by
  simp [order, Entry.acquirer?]

@[simp] theorem order_did : order (log ++ [.did t d]) = order log := by
  simp [order, Entry.acquirer?]

@[simp] theorem done_acquired : done (log ++ [.acquired t]) = done log := by
  simp [done, Entry.deed?]

@[simp] theorem done_did : done (log ++ [.did t d]) = done log ++ [d] := by
  simp [done, Entry.deed?]

@[simp] theorem deeds_acquired : deeds (log ++ [.acquired u]) t = deeds log t := by
  simp [deeds, Entry.deedOf?]

@[simp] theorem deeds_did_self : deeds (log ++ [.did t d]) t = deeds log t ++ [d] := by
  simp [deeds, Entry.deedOf?]

variable {t u}

theorem deeds_did_of_ne (other : t ≠ u) : deeds (log ++ [.did u d]) t = deeds log t := by
  simp [deeds, Entry.deedOf?, other.symm]

/-- What the holder of the gate does comes last. -/
theorem serial_did (distinct : (order log).Nodup) (last : (order log).getLast? = some t) :
    serial (log ++ [.did t d]) = serial log ++ [d] := by
  obtain ⟨front, split⟩ := List.getLast?_eq_some_iff.mp last
  have others : ∀ u ∈ front, deeds (log ++ [.did t d]) u = deeds log u := by
    intro u member
    refine deeds_did_of_ne log d fun same => ?_
    rw [split, List.nodup_append] at distinct
    exact distinct.2.2 u member t List.mem_cons_self same
  rw [serial, serial, order_did, split, List.flatMap_append, List.flatMap_append,
    List.flatMap_singleton, List.flatMap_singleton, deeds_did_self, List.append_assoc,
    List.flatMap_congr others]

/-- Who has just got the gate has not done anything. -/
theorem serial_acquired (nothing : deeds log t = []) :
    serial (log ++ [.acquired t]) = serial log := by
  have same : deeds (log ++ [.acquired t]) = deeds log := funext fun u => deeds_acquired log u t
  rw [serial, same, order_acquired, List.flatMap_append, List.flatMap_singleton, nothing,
    List.append_nil, serial]

end Log

theorem deeds_note (p q : Site ι σ) (t : Ticket) : deeds (p.note q).log t = deeds q.log t := by
  rw [deeds, note, List.filterMap_append, filterMap_acquisitions (fun _ => rfl), List.append_nil,
    deeds]

theorem done_note (p q : Site ι σ) : done (p.note q).log = done q.log := by
  rw [done, note, List.filterMap_append, filterMap_acquisitions (fun _ => rfl), List.append_nil, done]

/-- The log and the gate: everybody who has come to the gate got it once or waits for it, and only
who got it has done anything. -/
structure Scheduled (g : Gate Ticket) (tickets : Nat) (log : List (Entry ι σ)) : Prop where
  distinct : (order log ++ g.waiting).Nodup
  numbered : ∀ t ∈ order log ++ g.waiting, t < tickets
  last : ∀ t, g.holder = some t → (order log).getLast? = some t
  known : ∀ t, t ∉ order log → deeds log t = []
  serial : serial log = done log

namespace Scheduled

variable {g g' : Gate Ticket} {tickets : Nat} {log : List (Entry ι σ)} {t : Ticket}

theorem succ (scheduled : Scheduled g tickets log) : Scheduled g (tickets + 1) log :=
  { scheduled with
    numbered := fun t member => Nat.lt_succ_of_lt (scheduled.numbered t member) }

/-- A new ticket has done nothing. -/
theorem deeds_new (scheduled : Scheduled g tickets log) : deeds log tickets = [] :=
  scheduled.known tickets fun member =>
    Nat.lt_irrefl tickets (scheduled.numbered tickets (List.mem_append_left _ member))

theorem did (scheduled : Scheduled g tickets log) (held : g.holder = some t) (d : Deed ι σ) :
    Scheduled g tickets (log ++ [.did t d]) := by
  have last := scheduled.last t held
  have distinct := (List.nodup_append.mp scheduled.distinct).1
  refine ⟨?_, ?_, ?_, ?_, ?_⟩
  · rw [order_did]
    exact scheduled.distinct
  · rw [order_did]
    exact scheduled.numbered
  · rw [order_did]
    exact scheduled.last
  · intro u unknown
    rw [order_did] at unknown
    have other : u ≠ t := fun same => unknown (same ▸ List.mem_of_getLast? last)
    rw [deeds_did_of_ne log d other]
    exact scheduled.known u unknown
  · rw [serial_did log d distinct last, done_did, scheduled.serial]

/-- A ticket joins those that wait. -/
theorem arrive (scheduled : Scheduled g tickets log) (waits : g'.waiting = g.waiting ++ [tickets])
    (holder : g'.holder = g.holder) : Scheduled g' (tickets + 1) log := by
  refine ⟨?_, ?_, ?_, scheduled.known, scheduled.serial⟩
  · rw [waits, ← List.append_assoc, List.nodup_append]
    refine ⟨scheduled.distinct, List.nodup_singleton _, ?_⟩
    intro t member u new
    rw [List.mem_singleton.mp new]
    exact Nat.ne_of_lt (scheduled.numbered t member)
  · intro t member
    rw [waits, ← List.append_assoc, List.mem_append, List.mem_singleton] at member
    obtain member | rfl := member
    · exact Nat.lt_succ_of_lt (scheduled.numbered t member)
    · exact Nat.lt_succ_self _
  · rw [holder]
    exact scheduled.last

/-- The first of those that wait gets the gate. -/
theorem acquire (scheduled : Scheduled g tickets log) (first : g.waiting = t :: g'.waiting)
    (holder : g'.holder = some t) : Scheduled g' tickets (log ++ [.acquired t]) := by
  have same : order (log ++ [.acquired t]) ++ g'.waiting = order log ++ g.waiting := by
    rw [order_acquired, first, List.append_assoc, List.singleton_append]
  have unknown : t ∉ order log := fun member =>
    (List.nodup_append.mp scheduled.distinct).2.2 t member t (first ▸ List.mem_cons_self) rfl
  refine ⟨?_, ?_, ?_, ?_, ?_⟩
  · rw [same]
    exact scheduled.distinct
  · rw [same]
    exact scheduled.numbered
  · intro u held
    obtain rfl : t = u := Option.some.inj (holder.symm.trans held)
    rw [order_acquired, List.getLast?_concat]
  · intro u unknown
    rw [order_acquired, List.mem_append, not_or] at unknown
    rw [deeds_acquired]
    exact scheduled.known u unknown.1
  · rw [serial_acquired log (scheduled.known t unknown), done_acquired]
    exact scheduled.serial

theorem enter (scheduled : Scheduled g tickets log) (sound : g.Sound) :
    Scheduled (g.enter tickets) (tickets + 1)
      (log ++ acquisitions g.holder (g.enter tickets).holder) := by
  cases held : g.holder with
  | none =>
    have alone := sound held
    have arrived : Scheduled ⟨none, [tickets]⟩ (tickets + 1) log :=
      scheduled.arrive (by rw [alone]; rfl) held.symm
    have enters : g.enter tickets = ⟨some tickets, []⟩ := by simp [Gate.enter, held, alone]
    rw [enters]
    exact arrived.acquire rfl rfl
  | some u =>
    have enters : g.enter tickets = ⟨some u, g.waiting ++ [tickets]⟩ := by
      simp [Gate.enter, held]
    rw [enters, acquisitions, if_pos rfl, List.append_nil]
    exact scheduled.arrive rfl held.symm

theorem release (scheduled : Scheduled g tickets log) (held : g.holder = some t) :
    Scheduled (g.release t) tickets (log ++ acquisitions g.holder (g.release t).holder) := by
  cases waiting : g.waiting with
  | nil =>
    have releases : g.release t = ⟨none, []⟩ := by simp [Gate.release, Gate.advance, held, waiting]
    have same : log ++ acquisitions g.holder none = log := by simp [acquisitions, held]
    rw [releases, same]
    exact { scheduled with
      distinct := by rw [← waiting]; exact scheduled.distinct
      numbered := by rw [← waiting]; exact scheduled.numbered
      last := fun _ held => absurd held (by simp) }
  | cons u rest =>
    have releases : g.release t = ⟨some u, rest⟩ := by
      simp [Gate.release, Gate.advance, held, waiting]
    have other : u ≠ t := by
      rintro rfl
      exact (List.nodup_append.mp scheduled.distinct).2.2 u
        (List.mem_of_getLast? (scheduled.last u held)) u (waiting ▸ List.mem_cons_self) rfl
    have logged : (acquisitions g.holder (some u) : List (Entry ι σ)) = [.acquired u] := by
      simp [acquisitions, held, other]
    rw [releases, logged]
    exact scheduled.acquire waiting rfl

variable [DecidableEq ι] [Checkpointable σ] {p q : Site ι σ} {m : Move ι σ}

omit [DecidableEq ι] [Checkpointable σ] in
theorem stay (scheduled : Scheduled p.gate tickets log) (same : q.gate = p.gate) :
    Scheduled q.gate tickets (log ++ acquisitions p.holder q.holder) := by
  have held : q.holder = p.holder := congrArg Gate.holder same
  rw [same, held, acquisitions_self, List.append_nil]
  exact scheduled

theorem acts (scheduled : Scheduled p.gate p.tickets p.log) (ordered : Orderly p)
    (acted : Acts p m q) :
    Scheduled q.gate q.tickets (q.log ++ acquisitions p.holder q.holder) := by
  cases acted with
  | enter | wait _ =>
    simpa [gate, holder] using scheduled.enter ordered.contest.lined.sound
  | change _ holds handle f => exact (scheduled.did holds (.changed handle f)).stay rfl
  | @ask _ _ holds c _ => exact (scheduled.did holds (.told c)).succ.stay rfl
  | leave _ holds _ => simpa [gate, holder] using scheduled.release holds
  | send _ => exact scheduled.succ.stay rfl
  | pass _ _ | accept _ _ | begin _ _ _ | publish _ | answer _ => exact scheduled.stay rfl
  | @perform t at_ stage s w advances =>
    have logged : Scheduled p.gate p.tickets (p.log ++ t.entries stage) := by
      unfold Task.entries
      split
      · split
        · rename_i stops
          have member : t.call ∈ p.pausing := by
            simp [pausing, underway, at_, t.unfinished_of_under advances.under, stops]
          exact scheduled.did (ordered.contest.holds t.call member) _
        · simpa using scheduled
      · simpa using scheduled
    exact logged.stay (gate_perform advances)
  | @release c _ _ at_ =>
    cases stops : c.command.pauses with
    | true =>
      have member : c ∈ p.pausing := by simp [pausing, underway, at_, Task.unfinished, stops]
      simpa [gate, holder, Actor.letGo, stops] using
        scheduled.release (ordered.contest.holds c member)
    | false => exact scheduled.stay (by simp [gate, Actor.letGo, stops])

theorem step? (scheduled : Scheduled p.gate p.tickets p.log) (ordered : Orderly p)
    (stepped : p.step? m = some q) : Scheduled q.gate q.tickets q.log := by
  obtain ⟨after, acted, rfl⟩ := Option.map_eq_some_iff.mp stepped
  exact scheduled.acts ordered (acts_of_act? ordered.running acted)

omit [DecidableEq ι] [Checkpointable σ] in
theorem start : Scheduled .free 0 ([] : List (Entry ι σ)) where
  distinct := .nil
  numbered := List.forall_mem_nil _
  last := nofun
  known _ _ := rfl
  serial := rfl

end Scheduled

/-! ## Whole units of work and whole operations -/

variable {p q : Site ι σ}

def Deed.isOperation : Deed ι σ → Bool
  | operated _ _ _ => true
  | _ => false

/-- The calls that were sent and not yet performed. -/
def unperformed (p : Site ι σ) : List (Call ι) :=
  (p.task.toList.filter (·.stage.result?.isNone)).map (·.call) ++ p.actor.queue ++ p.actor.sending

/-- The operations that were called for and not yet performed. -/
def ahead (p : Site ι σ) : List (Call ι) :=
  p.actor.atGate ++ p.unperformed.filter (·.command.pauses)

theorem unperformed_subset : p.unperformed ⊆ p.underway := by
  intro c member
  simp only [unperformed, underway, List.mem_append] at member ⊢
  refine member.imp_left (Or.imp_left fun on => ?_)
  obtain ⟨t, carried, rfl⟩ := List.mem_map.mp on
  obtain ⟨at_, under⟩ := List.mem_filter.mp carried
  refine List.mem_flatMap.mpr ⟨t, at_, ?_⟩
  rw [t.unfinished_of_under (Option.isNone_iff_eq_none.mp under)]
  exact List.mem_singleton_self _

theorem Task.entries_of_under (t : Task ι) {stage : Stage ι} (under : stage.result? = none) :
    (t.entries stage : List (Entry ι σ)) = [] := by
  cases stage <;> first | rfl | cases under

/-- What was done under a ticket is part of a unit of work, or a whole operation. -/
structure Whole (p : Site ι σ) : Prop where
  units : ∀ unit ∈ p.units, ∀ d ∈ deeds p.log unit, d.isOperation = false
  ahead : ∀ c ∈ p.ahead, deeds p.log c.ticket = []
  all : ∀ t, (∀ d ∈ deeds p.log t, d.isOperation = false) ∨
    ∃ c draw result, deeds p.log t = [.operated c draw result]

namespace Whole

variable [DecidableEq ι] [Checkpointable σ] {m : Move ι σ}

omit [DecidableEq ι] [Checkpointable σ] in
theorem of_same (whole : Whole p) (log : q.log = p.log) (units : q.units ⊆ p.units)
    (ahead : q.ahead ⊆ p.ahead) : Whole q := by
  refine ⟨?_, ?_, ?_⟩ <;> rw [log]
  · exact fun unit here => whole.units unit (units here)
  · exact fun c member => whole.ahead c (ahead member)
  · exact whole.all

omit [DecidableEq ι] [Checkpointable σ] in
theorem pausing_of_ahead {c : Call ι} (member : c ∈ p.ahead) : c ∈ p.actor.atGate ++ p.pausing := by
  obtain waits | sent := List.mem_append.mp member
  · exact List.mem_append_left _ waits
  · obtain ⟨sent, stops⟩ := List.mem_filter.mp sent
    exact List.mem_append_right _ (List.mem_filter.mpr ⟨unperformed_subset sent, stops⟩)

omit [DecidableEq ι] [Checkpointable σ] in
theorem did_unit (whole : Whole p) (ordered : Orderly p) {unit : Ticket} (here : unit ∈ p.units)
    {d : Deed ι σ} (part : d.isOperation = false) (log : q.log = p.log ++ [.did unit d])
    (units : q.units = p.units) (ahead : q.ahead ⊆ p.ahead) : Whole q := by
  have parts : ∀ e ∈ deeds p.log unit ++ [d], e.isOperation = false := by
    intro e member
    obtain member | new := List.mem_append.mp member
    · exact whole.units unit here e member
    · rw [List.mem_singleton.mp new]
      exact part
  refine ⟨?_, ?_, ?_⟩ <;> rw [log]
  · intro other member
    rw [units] at member
    by_cases same : other = unit
    · rw [same, deeds_did_self]
      exact parts
    · rw [deeds_did_of_ne p.log d same]
      exact whole.units other member
  · intro c member
    have other : c.ticket ≠ unit := by
      rintro rfl
      exact List.disjoint_of_nodup_append ordered.contest.nodup here
        (List.mem_map_of_mem (pausing_of_ahead (ahead member)))
    rw [deeds_did_of_ne p.log d other]
    exact whole.ahead c (ahead member)
  · intro t
    by_cases same : t = unit
    · rw [same, deeds_did_self]
      exact Or.inl parts
    · rw [deeds_did_of_ne p.log d same]
      exact whole.all t

omit [DecidableEq ι] [Checkpointable σ] in
theorem did_operation (whole : Whole p) (ordered : Orderly p) {c : Call ι} (member : c ∈ p.ahead)
    (sent : c ∈ p.pausing) {draw : Draw} {result : Outcome Reply}
    (log : q.log = p.log ++ [.did c.ticket (.operated c.command draw result)])
    (units : q.units = p.units) (ahead : q.ahead = p.actor.atGate) : Whole q := by
  have alone : deeds q.log c.ticket = [.operated c.command draw result] := by
    rw [log, deeds_did_self, whole.ahead c member, List.nil_append]
  have others : ∀ t, t ≠ c.ticket → deeds q.log t = deeds p.log t := fun t other => by
    rw [log, deeds_did_of_ne p.log _ other]
  have nodup := ordered.contest.nodup
  refine ⟨?_, ?_, ?_⟩
  · intro unit here
    rw [units] at here
    rw [others]
    · exact whole.units unit here
    · rintro rfl
      exact List.disjoint_of_nodup_append nodup here
        (List.mem_map_of_mem (List.mem_append_right _ sent))
  · intro d waits
    rw [ahead] at waits
    rw [others]
    · exact whole.ahead d (List.mem_append_left _ waits)
    · intro same
      have apart := (List.nodup_append.mp nodup).2.1
      rw [List.map_append] at apart
      exact List.disjoint_of_nodup_append apart (List.mem_map_of_mem waits)
        (same ▸ List.mem_map_of_mem sent)
  · intro t
    by_cases same : t = c.ticket
    · exact Or.inr ⟨c.command, draw, result, same ▸ alone⟩
    · rw [others t same]
      exact whole.all t

theorem acts (whole : Whole p) (ordered : Orderly p) (scheduled : Scheduled p.gate p.tickets p.log)
    (acted : Acts p m q) : Whole q := by
  have all (l : List Ticket) : l ⊆ l := List.Subset.refl l
  cases acted with
  | enter =>
    refine ⟨?_, whole.ahead, whole.all⟩
    intro unit member
    obtain member | new := List.mem_append.mp member
    · exact whole.units unit member
    · rw [List.mem_singleton.mp new]
      simp [scheduled.deeds_new]
  | change here holds handle f =>
    exact whole.did_unit ordered here rfl rfl rfl (List.Subset.refl _)
  | ask here holds free =>
    exact whole.did_unit ordered here rfl rfl rfl (by simp [Site.ahead, unperformed, free])
  | leave _ _ _ =>
    exact whole.of_same rfl (fun _ member => (List.mem_filter.mp member).1) (List.Subset.refl _)
  | @wait c _ =>
    refine ⟨whole.units, ?_, whole.all⟩
    intro d member
    by_cases new : d = ⟨p.tickets, c⟩
    · rw [new]
      exact scheduled.deeds_new
    · refine whole.ahead d ?_
      simp only [Site.ahead, List.mem_append, List.mem_singleton, new, or_false] at member ⊢
      exact member
  | send free => exact whole.of_same rfl (all _) (by simp [Site.ahead, unperformed, free])
  | pass waits holds =>
    refine whole.of_same rfl (all _) fun d member => ?_
    simp only [Site.ahead, unperformed, List.filter_append, List.mem_append, List.mem_filter,
      List.mem_singleton] at member ⊢
    obtain ⟨stays, _⟩ | sent | sent | ⟨rfl, _⟩ := member
    · exact Or.inl stays
    · exact Or.inr (Or.inl sent)
    · exact Or.inr (Or.inr sent)
    · exact Or.inl waits
  | accept first _ => exact whole.of_same rfl (all _) (by simp [Site.ahead, unperformed, first])
  | begin idle first _ =>
    exact whole.of_same rfl (all _) (by simp [Site.ahead, unperformed, idle, first, Stage.result?])
  | @perform t at_ stage _ _ advances =>
    have under := advances.under
    obtain more | ⟨result, rfl⟩ := advances.performed_or_under
    · refine whole.of_same ?_ (all _) (by simp [Site.ahead, unperformed, at_, under, more])
      rw [t.entries_of_under more, List.append_nil]
    · cases stops : t.call.command.pauses with
      | true =>
        have first := pausing_task at_ (t.unfinished_of_under under) stops
        have sent : t.call ∈ p.pausing := first ▸ List.mem_cons_self
        have member : t.call ∈ p.ahead := by simp [Site.ahead, unperformed, at_, under, stops]
        have behind : (p.actor.queue ++ p.actor.sending).filter (·.command.pauses) = [] :=
          (List.cons.inj (first.symm.trans (ordered.contest.pausing_eq sent))).2
        have logged : p.log ++ t.entries (.performed result) =
            p.log ++ [.did t.call.ticket (.operated t.call.command t.draw result)] := by
          simp [Task.entries, stops]
        refine whole.did_operation ordered member sent logged rfl ?_
        simp [Site.ahead, unperformed, Stage.result?, -List.filter_append, behind]
      | false =>
        refine whole.of_same (by simp [Task.entries, stops]) (all _) ?_
        simp [Site.ahead, unperformed, at_, Stage.result?]
  | publish at_ | release at_ | answer at_ =>
    exact whole.of_same rfl (all _) (by simp [Site.ahead, unperformed, at_, Stage.result?])

omit [DecidableEq ι] [Checkpointable σ] in
/-- To note who has got the gate does not change what was done. -/
theorem note (whole : Whole q) (p : Site ι σ) : Whole (p.note q) := by
  have same : deeds (p.note q).log = deeds q.log := funext fun t => deeds_note p q t
  refine ⟨?_, ?_, ?_⟩ <;> rw [same]
  · exact whole.units
  · exact whole.ahead
  · exact whole.all

theorem step? (whole : Whole p) (ordered : Orderly p)
    (scheduled : Scheduled p.gate p.tickets p.log) (stepped : p.step? m = some q) : Whole q := by
  obtain ⟨after, acted, rfl⟩ := Option.map_eq_some_iff.mp stepped
  exact (whole.acts ordered scheduled (acts_of_act? ordered.running acted)).note p

omit [DecidableEq ι] [Checkpointable σ] in
theorem start (service : Service ι) (buffer : Nat) (world : World ι σ) :
    Whole (.start service buffer world) :=
  ⟨List.forall_mem_nil _, List.forall_mem_nil _, fun _ => Or.inl (List.forall_mem_nil _)⟩

end Whole

end Rollback.Site
