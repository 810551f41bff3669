import Rollback.Snapshot.Cell

/-!
# Objects that take their fields back

An object is lawful if it takes back all fields that were captured from it, and then captures the
same fields again, with the rest of its state as it was. Its hooks may change anything but what is
captured (`Lawful`). Cells are lawful (`Cell.lawful`).
-/

namespace Rollback

namespace Checkpointable

variable {σ ρ : Type} [Checkpointable σ]

/-- A hook that leaves what is captured alone. -/
structure Spares (states : σ → Prop) (hook : σ → σ) : Prop where
  state : ∀ x, states x → states (hook x)
  declared : ∀ x, states x → Snapshot.declaredNames (hook x) = Snapshot.declaredNames x
  capture : ∀ x, states x → capture (hook x) = capture x

/-- An object with the states that it can be in, and with what no field covers of them. -/
structure Lawful (states : σ → Prop) (rest : σ → ρ) : Prop where
  before : Spares states beforeRestore
  after : Spares states afterRestore
  /-- Fields that were captured in the state `x` are taken back in a later state `y`. -/
  overwrite : ∀ x y fields, states x → states y →
    Snapshot.declaredNames y = Snapshot.declaredNames x → capture x = .ok fields →
    Snapshot.declaredNames x = fields.keys →
    ∃ z, overwrite fields y = (.ok (), z) ∧ states z ∧
      Snapshot.declaredNames z = Snapshot.declaredNames y ∧ capture z = .ok fields ∧
      rest z = rest y

/-- An object without hooks. -/
def Hookless (states : σ → Prop) : Prop :=
  ∀ x, states x → beforeRestore x = x ∧ afterRestore x = x

/-- The state `z` captures again what `x` did, with the rest of the state as in `y`. -/
structure Returns (states : σ → Prop) (rest : σ → ρ) (x y z : σ) : Prop where
  state : states z
  declared : Snapshot.declaredNames z = Snapshot.declaredNames x
  capture : capture z = capture x
  rest : Hookless states → rest z = rest y

variable {states : σ → Prop} {rest : σ → ρ} {x y z z' : σ}

theorem Returns.trans (first : Returns states rest x y z) (second : Returns states rest x z z') :
    Returns states rest x y z' :=
  ⟨second.state, second.declared, second.capture,
    fun hookless => (second.rest hookless).trans (first.rest hookless)⟩

/-- An object that captures the same fields gives the same snapshot. -/
theorem Returns.take (returns : Returns states rest x y z) (key : String) :
    Snapshot.take key z = Snapshot.take key x := by
  rw [Snapshot.take, Snapshot.take, returns.capture, returns.declared]

end Checkpointable

namespace Snapshot

variable {σ : Type} [Checkpointable σ]

theorem take_eq_ok_iff {key : String} {object : σ} {snapshot : Snapshot} :
    take key object = .ok snapshot ↔ Checkpointable.capture object = .ok snapshot.fields ∧
      declaredNames object = snapshot.fields.keys := by
  unfold take
  cases captured : Checkpointable.capture object with
  | error e => simp [bind, Except.bind]
  | ok fields =>
    simp only [bind, Except.bind, pure, Except.pure, Except.ok.injEq]
    split
    · rename_i same
      constructor
      · rintro ⟨⟩
        exact ⟨rfl, same⟩
      · rintro ⟨rfl, _⟩
        rfl
    · rename_i different
      simp only [reduceCtorEq, false_iff, not_and]
      rintro rfl
      exact different

end Snapshot

namespace Checkpointable.Lawful

variable {σ ρ : Type} [Checkpointable σ] {states : σ → Prop} {rest : σ → ρ}

/-- With the hooks around, a lawful object takes a snapshot back and is as captured. -/
theorem exists_returns (lawful : Lawful states rest) {x y : σ} (earlier : states x)
    (now : states y) (declared : Snapshot.declaredNames y = Snapshot.declaredNames x) {key : String}
    {snapshot : Snapshot} (taken : Snapshot.take key x = .ok snapshot) :
    ∃ z, Checkpointable.overwrite snapshot.fields (beforeRestore y) = (.ok (), z) ∧
      Returns states rest x y (afterRestore z) := by
  obtain ⟨captured, named⟩ := Snapshot.take_eq_ok_iff.mp taken
  have ready : Snapshot.declaredNames (beforeRestore y) = Snapshot.declaredNames x :=
    (lawful.before.declared y now).trans declared
  obtain ⟨z, overwritten, state, same, captures, kept⟩ := lawful.overwrite x (beforeRestore y)
    snapshot.fields earlier (lawful.before.state y now) ready captured named
  refine ⟨z, overwritten, lawful.after.state z state, ?_, ?_, fun hookless => ?_⟩
  · rw [lawful.after.declared z state, same, ready]
  · rw [lawful.after.capture z state, captures, captured]
  · rw [(hookless z state).2, kept, (hookless y now).1]

end Checkpointable.Lawful

namespace Cell

variable {kind c : Cell}

/-- The states of an object of the kind of a cell. A strict cell holds all declared fields, each
with a value of its type. -/
structure Alike (kind c : Cell) : Prop where
  strict : c.strict = kind.strict
  types : c.types = kind.types
  uncapturable : c.uncapturable = kind.uncapturable
  complete : c.strict = true → c.fields.keys = Snapshot.declaredNames c
  typed : c.strict = true → ∀ entry ∈ c.fields.toList,
    (c.typeOf entry.1).check entry.2.json = .ok ()

/-- All but the fields. The record of a strict cell is not part of its state. -/
def apart (c : Cell) : Cell :=
  { c with fields := ∅, hooks := if c.strict then [] else c.hooks }

/-- A hook that is recorded shows in the record only, and for a plain cell not even there. -/
theorem exists_record_eq (c : Cell) (hook : Hook) :
    ∃ hooks, c.record hook = { c with hooks } ∧ (c.strict = false → hooks = c.hooks) := by
  unfold record
  split
  · rename_i strict
    exact ⟨_, rfl, fun plain => absurd (plain.symm.trans strict) Bool.false_ne_true⟩
  · exact ⟨c.hooks, rfl, fun _ => rfl⟩

theorem spares_record (kind : Cell) (hook : Hook) :
    Checkpointable.Spares kind.Alike (·.record hook) := by
  constructor
  all_goals
    intro c alike
    obtain ⟨hooks, recorded, -⟩ := c.exists_record_eq hook
    simp only [recorded]
  · exact ⟨alike.strict, alike.types, alike.uncapturable, alike.complete, alike.typed⟩
  · rfl
  · rfl

/-- Fields of the types that a cell wants are all taken. -/
theorem exists_takeAll_eq {source : Fields} {names : List String} (distinct : names.Nodup)
    (fits : ∀ name ∈ names, ∃ v, source[name]? = some v ∧
      (c.typeOf name).check v.json = .ok ()) :
    ∃ fields, takeAll source c names = (.ok (), { c with fields }) ∧
      ∀ name : String, fields[name]? = if name ∈ names then source[name]? else c.fields[name]? := by
  induction names generalizing source c with
  | nil => exact ⟨c.fields, rfl, fun name => by simp⟩
  | cons name names ih =>
    obtain ⟨new, distinct⟩ := List.nodup_cons.mp distinct
    obtain ⟨⟨v, found, fitting⟩, others⟩ := List.forall_mem_cons.mp fits
    have apart : ∀ other ∈ names, (source.erase name)[other]? = source[other]? := by
      intro other member
      have different : name ≠ other := fun same => new (same ▸ member)
      rw [Std.ExtTreeMap.getElem?_erase, if_neg (by simpa using different)]
    have fits' : ∀ other ∈ names, ∃ v', (source.erase name)[other]? = some v' ∧
        ({ c with fields := c.fields.insert name v }.typeOf other).check v'.json = .ok () := by
      intro other member
      rw [apart other member]
      exact others other member
    obtain ⟨fields, taken, holds⟩ := ih distinct fits'
    refine ⟨fields, ?_, fun other => ?_⟩
    · simp only [takeAll, Fields.take, found, fitting]
      exact taken
    · rw [holds]
      by_cases member : other ∈ names
      · rw [if_pos member, if_pos (List.mem_cons_of_mem _ member), apart other member]
      · rw [if_neg member, Std.ExtTreeMap.getElem?_insert]
        by_cases same : name = other
        · simp [← same, found]
        · simp [member, same, Ne.symm same]

theorem capture_eq_ok_iff {fields : Fields} :
    c.capture = .ok fields ↔ c.uncapturable = false ∧ c.fields = fields := by
  have refused : pairMap.field = .error (.notCapturable .keyNotText) := by rfl
  cases holds : c.uncapturable <;> simp [capture, holds, refused, bind, Except.bind]

/-- What a strict cell holds fits the types of every cell of its kind. -/
theorem Alike.check {x y : Cell} (earlier : kind.Alike x) (now : kind.Alike y)
    (strict : y.strict = true) {name : String} {v : Value} (found : x.fields[name]? = some v) :
    (y.typeOf name).check v.json = .ok () := by
  have fitting := earlier.typed (by rw [earlier.strict, ← now.strict, strict]) (name, v)
    (Std.ExtTreeMap.mem_toList_iff_getElem?_eq_some.mpr found)
  rwa [typeOf, earlier.types, ← now.types] at fitting

/-- A strict cell with all declared fields takes the fields of another cell of its kind. -/
theorem takeAll_of_alike {x y : Cell} (earlier : kind.Alike x) (now : kind.Alike y)
    (strict : y.strict = true) (keys : y.fields.keys = x.fields.keys) :
    takeAll x.fields y y.fields.keys = (.ok (), { y with fields := x.fields }) := by
  have fits : ∀ name ∈ y.fields.keys, ∃ v, x.fields[name]? = some v ∧
      (y.typeOf name).check v.json = .ok () := by
    intro name member
    rw [keys, Std.ExtTreeMap.mem_keys, Std.ExtTreeMap.mem_iff_isSome_getElem?,
      Option.isSome_iff_exists] at member
    obtain ⟨v, found⟩ := member
    exact ⟨v, found, earlier.check now strict found⟩
  obtain ⟨fields, taken, holds⟩ := exists_takeAll_eq Std.ExtTreeMap.nodup_keys fits
  have same : fields = x.fields := by
    apply Std.ExtTreeMap.ext_getElem?
    intro name
    rw [holds]
    split
    · rfl
    · rename_i absent
      have absent' := keys ▸ absent
      rw [Std.ExtTreeMap.mem_keys] at absent absent'
      rw [getElem?_neg _ _ absent, getElem?_neg _ _ absent']
  rw [taken, same]

/-- Of a cell that is overwritten only the fields change, and the record of a strict one. -/
theorem exists_overwrite_eq {x y : Cell} (earlier : kind.Alike x) (now : kind.Alike y)
    (keys : y.strict = true → y.fields.keys = x.fields.keys) :
    ∃ hooks, y.overwrite x.fields = (.ok (), { y with fields := x.fields, hooks }) ∧
      (y.strict = false → hooks = y.hooks) := by
  by_cases strict : y.strict = true
  · obtain ⟨hooks, recorded, -⟩ := y.exists_record_eq .restore
    refine ⟨hooks, ?_, fun plain => absurd (plain.symm.trans strict) Bool.false_ne_true⟩
    rw [overwrite, if_pos strict, recorded]
    exact takeAll_of_alike earlier (y := { y with hooks })
      ⟨now.strict, now.types, now.uncapturable, now.complete, now.typed⟩ strict (keys strict)
  · exact ⟨y.hooks, by rw [overwrite, if_neg strict], fun _ => rfl⟩

/-- A cell is lawful as long as it stays of its kind. -/
theorem lawful (kind : Cell) : Checkpointable.Lawful kind.Alike apart := by
  refine ⟨spares_record kind .before, spares_record kind .after, ?_⟩
  intro x y fields earlier now declared captured named
  obtain ⟨capturable, rfl⟩ := capture_eq_ok_iff.mp captured
  have capturable' : y.uncapturable = false := by
    rw [now.uncapturable, ← earlier.uncapturable, capturable]
  obtain ⟨hooks, overwritten, plain⟩ := exists_overwrite_eq earlier now fun strict => by
    rw [now.complete strict, declared, named]
  refine ⟨_, overwritten, ⟨now.strict, now.types, now.uncapturable, ?_, ?_⟩, rfl,
    capture_eq_ok_iff.mpr ⟨capturable', rfl⟩, ?_⟩
  · intro strict
    exact (declared.trans named).symm
  · intro strict entry member
    exact earlier.check now strict (Std.ExtTreeMap.mem_toList_iff_getElem?_eq_some.mp member)
  · cases strict : y.strict with
    | false => simp [apart, strict, plain strict]
    | true => simp [apart, strict]

/-- A plain cell does not record its hooks. -/
theorem hookless_of_plain (plain : kind.strict = false) : Checkpointable.Hookless kind.Alike := by
  intro c alike
  have same : ∀ hook, c.record hook = c := fun hook => by
    rw [record, if_neg (by rw [alike.strict, plain]; exact Bool.false_ne_true)]
  exact ⟨same .before, same .after⟩

/-- A cell with one number. -/
def counter (n : Int) (strict : Bool) : Cell where
  fields := (∅ : Fields).insert "count" ((Value.integer? n).getD .null)
  declared := ["count"]
  types := (∅ : NameMap FieldType).insert "count" .u64
  strict := strict
  uncapturable := false
  hooks := []

end Cell

end Rollback
