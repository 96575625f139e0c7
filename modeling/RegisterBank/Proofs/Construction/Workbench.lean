import RegisterBank.Proofs.Construction.Maps

/-!
# Sequences of construction calls

Who builds register maps has configurations, fields, registers and maps in
hand, makes new ones and changes those that are there.  `Workbench` is what is
in hand, and `Workbench.Call` is one call on it, which names values by their
places.  Nothing is hidden by a refused call: `Workbench.run` goes on from what
it left.

Each call leads from built values to built values (`Workbench.Built.call`), so
a run does, and built values are valid.  What a refused call leaves is said by
`Workbench.LeftBy`: a call that adds a list keeps the elements before the first
one that is refused, and every other call changes nothing.
-/

namespace RegisterBank

/-! ## Lists that are added up to the first refusal -/

section AddAll

variable {σ α : Type}

/-- The elements of a list added one after the other, up to the first that is
refused, and the reason why that one is. -/
def addAll (add : σ → α → Result σ) (state : σ) : List α → σ × Result Unit
  | [] => (state, .ok ())
  | added :: rest =>
    match add state added with
    | .ok next => addAll add next rest
    | .error error => (state, .error error)

/-- Where adding one element only extends the state by it, a list that is
refused extends it by what stands before the first refused element. -/
theorem exists_of_addAll_error {add : σ → α → Result σ} {extended : σ → List α → σ}
    (extendedNil : ∀ state, extended state [] = state)
    (extendedAppend : ∀ state first second,
      extended (extended state first) second = extended state (first ++ second))
    (extension : ∀ {state next : σ} {added : α},
      add state added = .ok next → next = extended state [added])
    {state after : σ} {added : List α} {error : Error}
    (stopped : addAll add state added = (after, .error error)) :
    ∃ taken refused rest, added = taken ++ refused :: rest ∧
      addAll add state taken = (extended state taken, .ok ()) ∧
      add (extended state taken) refused = .error error ∧ after = extended state taken := by
  -- On the list; each element taken makes the state the one that the rest starts from.
  induction added generalizing state with
  | nil => cases stopped
  | cons first rest ih =>
    unfold addAll at stopped
    cases tried : add state first with
    | error reason =>
      rw [tried] at stopped
      cases stopped
      refine ⟨[], first, rest, rfl, ?_, ?_, ?_⟩
      · rw [extendedNil]
        rfl
      · rw [extendedNil]
        exact tried
      · exact (extendedNil after).symm
    | ok next =>
      rw [tried] at stopped
      obtain ⟨taken, refused, behind, split, accepted, reason, left⟩ := ih stopped
      have reached := extension tried
      subst reached
      rw [extendedAppend] at accepted reason left
      refine ⟨first :: taken, refused, behind, congrArg (first :: ·) split, ?_, reason, left⟩
      unfold addAll
      rw [tried]
      exact accepted

end AddAll

namespace Register

/-- The register with fields at its end. -/
def extended (register : Register) (added : List Field) : Register :=
  { register with fields := register.fields ++ added }

/-- A field that is accepted is the only thing that is added. -/
theorem eq_extended_of_addField {register next : Register} {added : Field}
    (done : register.addField added = .ok next) : next = register.extended [added] := by
  unfold addField at done
  split at done
  · cases done
  · cases done
    rfl

/-- Adding fields stops at the first that is refused. -/
theorem addFields_eq_addAll (register : Register) (added : List Field) :
    register.addFields added = addAll addField register added := by
  induction added generalizing register with
  | nil => rfl
  | cons first rest ih =>
    unfold addFields addAll
    cases register.addField first with
    | ok next => exact ih next
    | error error => rfl

/-- A refused list leaves the fields before the first that is refused. -/
theorem exists_of_addFields_error {register after : Register} {added : List Field} {error : Error}
    (stopped : register.addFields added = (after, .error error)) :
    ∃ taken refused rest, added = taken ++ refused :: rest ∧
      register.addFields taken = (register.extended taken, .ok ()) ∧
      (register.extended taken).addField refused = .error error ∧
      after = register.extended taken := by
  rw [addFields_eq_addAll] at stopped
  simp only [addFields_eq_addAll]
  refine exists_of_addAll_error ?_ ?_ ?_ stopped
  · intro register
    unfold extended
    rw [List.append_nil]
  · intro register first second
    unfold extended
    rw [List.append_assoc]
  · exact eq_extended_of_addField

end Register

namespace RegisterMap

/-- The map with registers at its end. -/
def extended (map : RegisterMap) (added : List Register) : RegisterMap :=
  { map with registers := map.registers ++ added }

/-- A register that is accepted is the only thing that is added. -/
theorem eq_extended_of_addRegister {map next : RegisterMap} {added : Register}
    (done : map.addRegister added = .ok next) : next = map.extended [added] := by
  unfold addRegister at done
  split at done
  · cases done
  · cases done
    rfl

/-- Adding registers stops at the first that is refused. -/
theorem addRegisters_eq_addAll (map : RegisterMap) (added : List Register) :
    map.addRegisters added = addAll addRegister map added := by
  induction added generalizing map with
  | nil => rfl
  | cons first rest ih =>
    unfold addRegisters addAll
    cases map.addRegister first with
    | ok next => exact ih next
    | error error => rfl

/-- A refused list leaves the registers before the first that is refused. -/
theorem exists_of_addRegisters_error {map after : RegisterMap} {added : List Register}
    {error : Error} (stopped : map.addRegisters added = (after, .error error)) :
    ∃ taken refused rest, added = taken ++ refused :: rest ∧
      map.addRegisters taken = (map.extended taken, .ok ()) ∧
      (map.extended taken).addRegister refused = .error error ∧ after = map.extended taken := by
  rw [addRegisters_eq_addAll] at stopped
  simp only [addRegisters_eq_addAll]
  refine exists_of_addAll_error ?_ ?_ ?_ stopped
  · intro map
    unfold extended
    rw [List.append_nil]
  · intro map first second
    unfold extended
    rw [List.append_assoc]
  · exact eq_extended_of_addRegister

end RegisterMap

/-! ## Calls -/

/-- The values in hand while register maps are built. -/
structure Workbench where
  configurations : List Configuration
  fields : List Field
  registers : List Register
  maps : List RegisterMap
  deriving DecidableEq, Repr

namespace Workbench

/-- A call on a field. -/
inductive FieldCall where
  | withDescription (description : String)
  | withInitial (initial : Nat)
  | withModifier (modifier : Modifier)
  | withModifiers (modifiers : List Modifier)
  deriving DecidableEq, Repr

/-- A call on a register.  Fields are named by their places on the bench. -/
inductive RegisterCall where
  | withDescription (description : String)
  | withAddress (address : Nat)
  /-- One field, be it in place or on the way to another register. -/
  | addField (field : Nat)
  | addFields (fields : List Nat)
  deriving DecidableEq, Repr

/-- A call on a map.  Registers are named by their places on the bench. -/
inductive MapCall where
  | addRegister (register : Nat)
  | addRegisters (registers : List Nat)
  deriving DecidableEq, Repr

/-- A call that makes a value or changes the one at a place. -/
inductive Call where
  | newConfiguration
  | setOption (place : Nat) (key : String) (value : SettingValue)
  | newField (name : String) (lsb width : Nat) (access : Access)
  | onField (place : Nat) (call : FieldCall)
  | newRegister (name : String)
  | onRegister (place : Nat) (call : RegisterCall)
  | newMap (configuration : Nat)
  | onMap (place : Nat) (call : MapCall)
  deriving DecidableEq, Repr

section Values

variable {α : Type}

/-- The values at some places.  A place without a value gives none. -/
def pick (values : List α) (places : List Nat) : List α :=
  places.filterMap fun place => values[place]?

/-- A change that keeps the value where it fails. -/
def attempt (change : α → Result α) (value : α) : α × Result Unit :=
  match change value with
  | .ok next => (next, .ok ())
  | .error error => (value, .error error)

/-- The values with a new one at their end, if it could be made. -/
def push (values : List α) : Result α → List α × Result Unit
  | .ok value => (values ++ [value], .ok ())
  | .error error => (values, .error error)

/-- The values with the one at a place changed.  Where there is none, nothing
is called. -/
def changeAt (values : List α) (place : Nat) (change : α → α × Result Unit) :
    List α × Result Unit :=
  match values[place]? with
  | some value => (values.set place (change value).1, (change value).2)
  | none => (values, .ok ())

end Values

/-- The field that a call makes of another. -/
def applyField (field : Field) : FieldCall → Result Field
  | .withDescription description => .ok (field.withDescription description)
  | .withInitial initial => field.withInitial initial
  | .withModifier modifier => field.withModifier modifier
  | .withModifiers modifiers => field.withModifiers modifiers

/-- A register after a call with the fields in hand, and how the call ended. -/
def applyRegister (fields : List Field) (register : Register) :
    RegisterCall → Register × Result Unit
  | .withDescription description => (register.withDescription description, .ok ())
  | .withAddress address => (register.withAddress address, .ok ())
  | .addField place =>
    match fields[place]? with
    | some added => attempt (fun register => register.addField added) register
    | none => (register, .ok ())
  | .addFields places => register.addFields (pick fields places)

/-- A map after a call with the registers in hand, and how the call ended. -/
def applyMap (registers : List Register) (map : RegisterMap) : MapCall → RegisterMap × Result Unit
  | .addRegister place =>
    match registers[place]? with
    | some added => attempt (fun map => map.addRegister added) map
    | none => (map, .ok ())
  | .addRegisters places => map.addRegisters (pick registers places)

/-- The bench after a call, and how the call ended. -/
def call (bench : Workbench) : Call → Workbench × Result Unit
  | .newConfiguration =>
    ({ bench with configurations := bench.configurations ++ [.default] }, .ok ())
  | .setOption place key value =>
    let changed :=
      changeAt bench.configurations place (attempt fun config => config.set key value)
    ({ bench with configurations := changed.1 }, changed.2)
  | .newField name lsb width access =>
    let changed := push bench.fields (Field.make name lsb width access)
    ({ bench with fields := changed.1 }, changed.2)
  | .onField place call =>
    let changed :=
      changeAt bench.fields place (attempt fun field => applyField field call)
    ({ bench with fields := changed.1 }, changed.2)
  | .newRegister name =>
    let changed := push bench.registers (Register.make name)
    ({ bench with registers := changed.1 }, changed.2)
  | .onRegister place call =>
    let changed :=
      changeAt bench.registers place fun register => applyRegister bench.fields register call
    ({ bench with registers := changed.1 }, changed.2)
  | .newMap place =>
    match bench.configurations[place]? with
    | some config => ({ bench with maps := bench.maps ++ [RegisterMap.empty config] }, .ok ())
    | none => (bench, .ok ())
  | .onMap place call =>
    let changed :=
      changeAt bench.maps place fun map => applyMap bench.registers map call
    ({ bench with maps := changed.1 }, changed.2)

/-- The bench after calls, one after the other, whatever becomes of each. -/
def run (bench : Workbench) (calls : List Call) : Workbench :=
  calls.foldl (fun bench call => (bench.call call).1) bench

/-- A bench with nothing on it. -/
def empty : Workbench := ⟨[], [], [], []⟩

/-! ## Built values stay built -/

/-- Everything on the bench comes from the constructors. -/
structure Built (bench : Workbench) : Prop where
  configurations : ∀ config ∈ bench.configurations, config.Reachable
  fields : ∀ field ∈ bench.fields, field.Built
  registers : ∀ register ∈ bench.registers, register.Built
  maps : ∀ map ∈ bench.maps, map.Built

section Values

variable {α : Type} {P : α → Prop} {values : List α}

theorem forall_pick (kept : ∀ value ∈ values, P value) (places : List Nat) :
    ∀ value ∈ pick values places, P value := by
  intro value picked
  rcases List.mem_filterMap.mp picked with ⟨place, -, found⟩
  exact kept value (List.mem_of_getElem? found)

theorem forall_append_singleton {added : α} (kept : ∀ value ∈ values, P value) (fresh : P added) :
    ∀ value ∈ values ++ [added], P value := by
  intro value listed
  rcases List.mem_append.mp listed with listed | listed
  · exact kept value listed
  · rw [List.mem_singleton] at listed
    rw [listed]
    exact fresh

/-- What is made is put at the end, and nothing if it could not be made. -/
theorem forall_push {made : Result α} (kept : ∀ value ∈ values, P value)
    (fresh : ∀ value, made = .ok value → P value) : ∀ value ∈ (push values made).1, P value := by
  cases made with
  | ok value => exact forall_append_singleton kept (fresh value rfl)
  | error error => exact kept

/-- A change that fails leaves the value, so that what holds before and after a
change holds. -/
theorem attempt_fst {change : α → Result α} {value : α} (kept : P value)
    (changed : ∀ next, change value = .ok next → P next) : P (attempt change value).1 := by
  unfold attempt
  cases tried : change value with
  | ok next => exact changed next tried
  | error error => exact kept

/-- Changing one value leaves the others alone. -/
theorem forall_changeAt {place : Nat} {change : α → α × Result Unit}
    (kept : ∀ value ∈ values, P value) (changed : ∀ value ∈ values, P (change value).1) :
    ∀ value ∈ (changeAt values place change).1, P value := by
  unfold changeAt
  cases found : values[place]? with
  | none => exact kept
  | some value =>
    intro other listed
    rcases List.mem_or_eq_of_mem_set listed with listed | rfl
    · exact kept other listed
    · exact changed value (List.mem_of_getElem? found)

end Values

/-- A call on a field makes a built field. -/
theorem built_applyField {field next : Field} (built : field.Built) {call : FieldCall}
    (done : applyField field call = .ok next) : next.Built := by
  cases call with
  | withDescription description =>
    cases done
    exact built.withDescription description
  | withInitial initial => exact built.withInitial done
  | withModifier modifier => exact built.withModifier done
  | withModifiers modifiers => exact built.withModifiers done

/-- A call on a register keeps it built, also where it fails half way. -/
theorem built_applyRegister {fields : List Field} (inHand : ∀ field ∈ fields, field.Built)
    {register : Register} (built : register.Built) (call : RegisterCall) :
    (applyRegister fields register call).1.Built := by
  cases call with
  | withDescription description => exact built.withDescription description
  | withAddress address => exact built.withAddress address
  | addField place =>
    dsimp only [applyRegister]
    cases found : fields[place]? with
    | none => exact built
    | some added =>
      have addedBuilt := inHand added (List.mem_of_getElem? found)
      exact attempt_fst built fun next done => .addField built addedBuilt done
  | addFields places => exact built.addFields (forall_pick inHand places)

/-- A call on a map keeps it built, also where it fails half way. -/
theorem built_applyMap {registers : List Register}
    (inHand : ∀ register ∈ registers, register.Built) {map : RegisterMap} (built : map.Built)
    (call : MapCall) : (applyMap registers map call).1.Built := by
  cases call with
  | addRegister place =>
    dsimp only [applyMap]
    cases found : registers[place]? with
    | none => exact built
    | some added =>
      have addedBuilt := inHand added (List.mem_of_getElem? found)
      exact attempt_fst built fun next done => .addRegister built addedBuilt done
  | addRegisters places => exact built.addRegisters (forall_pick inHand places)

theorem Built.empty : Workbench.empty.Built where
  configurations := List.forall_mem_nil _
  fields := List.forall_mem_nil _
  registers := List.forall_mem_nil _
  maps := List.forall_mem_nil _

/-- A call, successful or not, leaves built values. -/
theorem Built.call {bench : Workbench} (built : bench.Built) (call : Call) :
    (bench.call call).1.Built := by
  cases call with
  | newConfiguration =>
    exact { built with configurations := forall_append_singleton built.configurations .default }
  | setOption place key value =>
    refine { built with configurations := forall_changeAt built.configurations ?_ }
    intro config listed
    have reachable := built.configurations config listed
    exact attempt_fst reachable fun next done => reachable.set done
  | newField name lsb width access =>
    exact { built with fields := forall_push built.fields fun _ made => .make made }
  | onField place call =>
    refine { built with fields := forall_changeAt built.fields ?_ }
    intro field listed
    have fieldBuilt := built.fields field listed
    exact attempt_fst fieldBuilt fun next done => built_applyField fieldBuilt done
  | newRegister name =>
    exact { built with registers := forall_push built.registers fun _ made => .make made }
  | onRegister place call =>
    refine { built with registers := forall_changeAt built.registers ?_ }
    intro register listed
    exact built_applyRegister built.fields (built.registers register listed) call
  | newMap place =>
    dsimp only [Workbench.call]
    cases found : bench.configurations[place]? with
    | none => exact built
    | some config =>
      have reachable := built.configurations config (List.mem_of_getElem? found)
      exact { built with maps := forall_append_singleton built.maps (.empty reachable) }
  | onMap place call =>
    refine { built with maps := forall_changeAt built.maps ?_ }
    intro map listed
    exact built_applyMap built.registers (built.maps map listed) call

/-- By induction on the calls, whatever their results are. -/
theorem Built.run {bench : Workbench} (built : bench.Built) (calls : List Call) :
    (bench.run calls).Built := by
  induction calls generalizing bench with
  | nil => exact built
  | cons call rest ih => exact ih (built.call call)

/-- A map that is on the bench in the end is built. -/
theorem built_of_mem_run (calls : List Call) {map : RegisterMap}
    (listed : map ∈ (empty.run calls).maps) : map.Built :=
  (Built.empty.run calls).maps map listed

/-! ## Refused calls -/

/-- What is on the bench after a call that was refused for a reason. -/
def LeftBy (bench : Workbench) (error : Error) (after : Workbench) : Call → Prop
  | .onRegister place (.addFields places) =>
    ∃ register taken refused rest, bench.registers[place]? = some register ∧
      pick bench.fields places = taken ++ refused :: rest ∧
      register.addFields taken = (register.extended taken, .ok ()) ∧
      (register.extended taken).addField refused = .error error ∧
      after = { bench with registers := bench.registers.set place (register.extended taken) }
  | .onMap place (.addRegisters places) =>
    ∃ map taken refused rest, bench.maps[place]? = some map ∧
      pick bench.registers places = taken ++ refused :: rest ∧
      map.addRegisters taken = (map.extended taken, .ok ()) ∧
      (map.extended taken).addRegister refused = .error error ∧
      after = { bench with maps := bench.maps.set place (map.extended taken) }
  | _ => after = bench

section Values

variable {α : Type} {values : List α} {error : Error}

/-- A failure puts nothing in. -/
theorem push_of_error {made : Result α} (refused : (push values made).2 = .error error) :
    (push values made).1 = values := by
  cases made with
  | ok value => cases refused
  | error reason => rfl

/-- A failed change is the failure of the value at its place. -/
theorem exists_of_changeAt_error {place : Nat} {change : α → α × Result Unit}
    (refused : (changeAt values place change).2 = .error error) :
    ∃ value, values[place]? = some value ∧ (change value).2 = .error error ∧
      (changeAt values place change).1 = values.set place (change value).1 := by
  unfold changeAt at refused ⊢
  cases found : values[place]? with
  | none =>
    rw [found] at refused
    cases refused
  | some value =>
    rw [found] at refused
    exact ⟨value, rfl, refused, rfl⟩

theorem attempt_of_error {change : α → Result α} {value : α}
    (refused : (attempt change value).2 = .error error) : (attempt change value).1 = value := by
  unfold attempt at refused ⊢
  cases tried : change value with
  | ok next =>
    rw [tried] at refused
    cases refused
  | error reason => rfl

/-- A change that keeps what it fails on leaves all values as they were. -/
theorem changeAt_of_error {place : Nat} {change : α → α × Result Unit}
    (keeps : ∀ value, (change value).2 = .error error → (change value).1 = value)
    (refused : (changeAt values place change).2 = .error error) :
    (changeAt values place change).1 = values := by
  rcases exists_of_changeAt_error refused with ⟨value, found, failed, left⟩
  obtain ⟨inside, rfl⟩ := List.getElem?_eq_some_iff.mp found
  rw [left, keeps _ failed]
  exact List.set_getElem_self inside

end Values

/-- A field that is refused leaves its register as it was. -/
theorem applyRegister_addField_of_error {fields : List Field} {register : Register} {place : Nat}
    {error : Error} (refused : (applyRegister fields register (.addField place)).2 = .error error) :
    (applyRegister fields register (.addField place)).1 = register := by
  dsimp only [applyRegister] at refused ⊢
  cases found : fields[place]? with
  | none => rfl
  | some added =>
    rw [found] at refused
    exact attempt_of_error refused

/-- A register that is refused leaves its map as it was. -/
theorem applyMap_addRegister_of_error {registers : List Register} {map : RegisterMap} {place : Nat}
    {error : Error} (refused : (applyMap registers map (.addRegister place)).2 = .error error) :
    (applyMap registers map (.addRegister place)).1 = map := by
  dsimp only [applyMap] at refused ⊢
  cases found : registers[place]? with
  | none => rfl
  | some added =>
    rw [found] at refused
    exact attempt_of_error refused

/-- By cases on the call: a single object is left alone, and a list keeps what
came before the failure. -/
theorem leftBy_of_error {bench : Workbench} {call : Call} {error : Error}
    (refused : (bench.call call).2 = .error error) :
    bench.LeftBy error (bench.call call).1 call := by
  cases call with
  | newConfiguration => cases refused
  | setOption place key value =>
    have same := changeAt_of_error (fun _ => attempt_of_error) refused
    exact congrArg (fun values => ({ bench with configurations := values } : Workbench)) same
  | newField name lsb width access =>
    have same := push_of_error refused
    exact congrArg (fun values => ({ bench with fields := values } : Workbench)) same
  | onField place call =>
    have same := changeAt_of_error (fun _ => attempt_of_error) refused
    exact congrArg (fun values => ({ bench with fields := values } : Workbench)) same
  | newRegister name =>
    have same := push_of_error refused
    exact congrArg (fun values => ({ bench with registers := values } : Workbench)) same
  | newMap place =>
    dsimp only [Workbench.call] at refused
    cases found : bench.configurations[place]? with
    | none =>
      rw [found] at refused
      cases refused
    | some config =>
      rw [found] at refused
      cases refused
  | onRegister place call =>
    cases call with
    | addFields places =>
      rcases exists_of_changeAt_error refused with ⟨register, found, failed, left⟩
      obtain ⟨taken, first, rest, split, accepted, reason, extension⟩ :=
        Register.exists_of_addFields_error (Prod.ext rfl failed)
      refine ⟨register, taken, first, rest, found, split, accepted, reason, ?_⟩
      have same := left.trans (congrArg (bench.registers.set place) extension)
      exact congrArg (fun values => ({ bench with registers := values } : Workbench)) same
    | withDescription description =>
      rcases exists_of_changeAt_error refused with ⟨register, -, failed, -⟩
      cases failed
    | withAddress address =>
      rcases exists_of_changeAt_error refused with ⟨register, -, failed, -⟩
      cases failed
    | addField field =>
      have same := changeAt_of_error (fun _ => applyRegister_addField_of_error) refused
      exact congrArg (fun values => ({ bench with registers := values } : Workbench)) same
  | onMap place call =>
    cases call with
    | addRegisters places =>
      rcases exists_of_changeAt_error refused with ⟨map, found, failed, left⟩
      obtain ⟨taken, first, rest, split, accepted, reason, extension⟩ :=
        RegisterMap.exists_of_addRegisters_error (Prod.ext rfl failed)
      refine ⟨map, taken, first, rest, found, split, accepted, reason, ?_⟩
      have same := left.trans (congrArg (bench.maps.set place) extension)
      exact congrArg (fun values => ({ bench with maps := values } : Workbench)) same
    | addRegister register =>
      have same := changeAt_of_error (fun _ => applyMap_addRegister_of_error) refused
      exact congrArg (fun values => ({ bench with maps := values } : Workbench)) same

/-! ## All runs -/

/-- Everything on the bench obeys its rules. -/
structure Valid (bench : Workbench) : Prop where
  configurations : ∀ config ∈ bench.configurations, config.Valid
  fields : ∀ field ∈ bench.fields, field.Valid
  registers : ∀ register ∈ bench.registers, register.Valid
  maps : ∀ map ∈ bench.maps, map.Valid

/-- Whatever was built is valid. -/
theorem Built.valid {bench : Workbench} (built : bench.Built) : bench.Valid where
  configurations := fun config listed => (built.configurations config listed).valid
  fields := fun field listed => (built.fields field listed).valid
  registers := fun register listed => (built.registers register listed).valid
  maps := fun map listed => (built.maps map listed).valid

/-- **Whatever is called, every value obeys its rules**, and a refused call
leaves everything as it was, but for the elements of a list that stand before
the first one that is refused. -/
theorem run_valid (calls : List Call) :
    (empty.run calls).Valid ∧
      ∀ call error, ((empty.run calls).call call).2 = .error error →
        (empty.run calls).LeftBy error ((empty.run calls).call call).1 call :=
  ⟨(Built.empty.run calls).valid, fun _ _ refused => leftBy_of_error refused⟩

/-- A register and three fields, of which the second overlaps the first. -/
def overlapping : List Call :=
  [.newField "low" 0 8 .readWrite, .newField "middle" 4 8 .readWrite,
    .newField "high" 16 8 .readOnly, .newRegister "status"]

/-- All three added to the register at once. -/
def addOverlapping : Call := .onRegister 0 (.addFields [0, 1, 2])

/-- A field that overlaps another is refused, and the register is left with the
one field. -/
theorem run_valid_overlapping :
    (empty.run overlapping).Valid ∧
      ((empty.run overlapping).call addOverlapping).2 =
        conflict (.fieldsOverlap "status" "middle" ⟨4, 8⟩ "low" ⟨0, 8⟩) ∧
      (empty.run overlapping).LeftBy
        (.conflict (.fieldsOverlap "status" "middle" ⟨4, 8⟩ "low" ⟨0, 8⟩))
        ((empty.run overlapping).call addOverlapping).1 addOverlapping ∧
      ((empty.run overlapping).call addOverlapping).1.registers =
        [⟨"status", "", none, [⟨"low", "", ⟨0, 8⟩, .readWrite, 0, .none⟩]⟩] :=
  ⟨(run_valid overlapping).1, rfl, (run_valid overlapping).2 _ _ rfl, rfl⟩

end Workbench

end RegisterBank
