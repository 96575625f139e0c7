import RegisterBank.Proofs.Bank.Signals

/-!
# Widths of the nets of a bank

A circuit looks the width of a net up by its name, among the ports and all
declarations of its items.  Every entry of that table is the width of some
signal (`exists_signal_of_mem_widths`), and a name stands for one signal, so
whatever is found for a signal that is declared is its width (`get_widths`).
-/

namespace RegisterBank.Verilog

/-- What a table says of a name that all of its entries agree on. -/
theorem Nets.get_of_mem {nets : Nets} {name : String} {number : Nat}
    (listed : (name, number) ∈ nets)
    (agree : ∀ entry ∈ nets, entry.1 = name → entry.2 = number) : nets.get name = number := by
  induction nets with
  | nil => cases listed
  | cons first rest ih =>
    obtain ⟨other, found⟩ := first
    unfold Nets.get
    by_cases same : other = name
    · rw [if_pos same]
      exact agree (other, found) List.mem_cons_self same
    · rw [if_neg same]
      rcases List.mem_cons.mp listed with here | behind
      · cases here
        exact absurd rfl same
      · exact ih behind fun entry member => agree entry (List.mem_cons_of_mem _ member)

end RegisterBank.Verilog

namespace RegisterBank.Bank

open RegisterBank.Verilog
open RegisterBank.Bus (Geometry)

/-! ## Declarations -/

/-- The entry of a signal in the table of widths. -/
def Signal.entry (bus : Geometry) (signal : Signal) : String × Nat :=
  (signal.name bus.reset, signal.width bus)

theorem portGroup_map_entry (comment : String) (ports : List ModulePort) :
    (portGroup comment ports).map (fun port => (port.name, port.width)) =
      ports.map fun port => (port.name, port.width) := by
  cases ports <;> rfl

theorem ports_eq (circuit : Circuit) :
    circuit.ports = Signal.entry circuit.bus .reset ::
      circuit.plan.registers.flatMap fun register =>
        register.fields.map fun field => Signal.entry circuit.bus (.port field) := by
  unfold Circuit.ports
  rw [List.map_flatMap]
  simp only [registerPorts, portGroup_map_entry, List.map_map]
  rfl

/-- A field's block declares the internal signals of the field. -/
theorem declared_fieldItems (bus : Geometry) (register : RegisterPlan) (field : FieldPlan) :
    ((fieldItems bus.reset register field).filterMap Item.declared?).Perm
      ((fieldSignals field).tail.map (Signal.entry bus)) := by
  unfold fieldItems fieldSignals
  cases field.template with
  | hardwareDriven => exact .refl _
  | sticky => exact .refl _
  | pulse => exact .refl _
  | selfClearing => exact .cons _ (.swap _ _ _)
  | stored readClear writeOnce =>
    cases writeOnce with
    | false => exact .refl _
    | true => exact .refl _

theorem declared_localBus (bus : Geometry) :
    (localBus bus).filterMap Item.declared? = localBusNets.map fun name =>
      Signal.entry bus (.bus name) :=
  rfl

theorem declared_decoder (bus : Geometry) (plan : Plan) :
    (decoder bus.addressWidth plan).filterMap Item.declared? =
      plan.registers.flatMap fun register =>
        [Signal.entry bus (.writeSelect register), Signal.entry bus (.readSelect register)] := by
  unfold decoder
  rw [List.filterMap_cons_none rfl, List.filterMap_flatMap]
  rfl

theorem declared_stateConstants (bus : Geometry) {plan : Plan} {entry : String × Nat}
    (listed : entry ∈ (stateConstants plan).filterMap Item.declared?) :
    ∃ name ∈ stateConstantNames, entry = Signal.entry bus (.constant name) := by
  obtain ⟨item, member, declared⟩ := List.mem_filterMap.mp listed
  obtain ⟨name, known, value, -, rfl⟩ := exists_parameter_of_mem member
  cases declared
  exact ⟨name, known, rfl⟩

/-! ## The table -/

section Table

variable {circuit : Circuit}

theorem declared_items (circuit : Circuit) :
    circuit.items.filterMap Item.declared? =
      (stateConstants circuit.plan).filterMap Item.declared?
        ++ (localBus circuit.bus).filterMap Item.declared?
        ++ ((decoder circuit.bus.addressWidth circuit.plan).filterMap Item.declared?
          ++ circuit.plan.registers.flatMap fun register =>
            register.fields.flatMap fun field =>
              (fieldItems circuit.bus.reset register field).filterMap Item.declared?) := by
  have multiplexer : (readMultiplexer circuit.bus circuit.readFiller circuit.plan).filterMap
      Item.declared? = [] := rfl
  unfold Circuit.items bankItems
  rw [List.filterMap_append, List.filterMap_append, List.filterMap_append, List.filterMap_append,
    List.filterMap_cons_none rfl, multiplexer, List.append_nil, List.filterMap_flatMap]
  simp only [List.filterMap_flatMap]

/-- Nothing but signals of the plan has a width. -/
theorem exists_signal_of_mem_widths {entry : String × Nat} (listed : entry ∈ circuit.widths) :
    ∃ signal ∈ circuit.plan.signals, entry = Signal.entry circuit.bus signal := by
  unfold Circuit.widths at listed
  rw [ports_eq, declared_items, declared_localBus, declared_decoder] at listed
  rcases List.mem_append.mp listed with port | declared
  · rcases List.mem_cons.mp port with rfl | port
    · exact ⟨.reset, Plan.reset_mem, rfl⟩
    · obtain ⟨register, planned, port⟩ := List.mem_flatMap.mp port
      obtain ⟨field, declared, rfl⟩ := List.mem_map.mp port
      exact ⟨.port field, Plan.port_mem planned declared, rfl⟩
  rcases List.mem_append.mp declared with declared | declared
  · rcases List.mem_append.mp declared with constant | net
    · rcases declared_stateConstants circuit.bus constant with ⟨name, known, rfl⟩
      exact ⟨.constant name, Plan.constant_mem known, rfl⟩
    · obtain ⟨name, known, rfl⟩ := List.mem_map.mp net
      exact ⟨.bus name, Plan.bus_mem known, rfl⟩
  rcases List.mem_append.mp declared with select | inner
  · obtain ⟨register, planned, own⟩ := List.mem_flatMap.mp select
    rcases List.mem_cons.mp own with rfl | own
    · exact ⟨.writeSelect register, Plan.writeSelect_mem planned, rfl⟩
    · rw [List.mem_singleton.mp own]
      exact ⟨.readSelect register, Plan.readSelect_mem planned, rfl⟩
  · obtain ⟨register, planned, inner⟩ := List.mem_flatMap.mp inner
    obtain ⟨field, inside, own⟩ := List.mem_flatMap.mp inner
    rw [(declared_fieldItems _ _ _).mem_iff] at own
    obtain ⟨signal, member, rfl⟩ := List.mem_map.mp own
    exact ⟨signal, Plan.field_mem planned inside (List.mem_of_mem_tail member), rfl⟩

theorem bus_mem_widths {name : String} (known : name ∈ localBusNets) :
    Signal.entry circuit.bus (.bus name) ∈ circuit.widths := by
  unfold Circuit.widths
  rw [declared_items, declared_localBus]
  exact List.mem_append_right _ (List.mem_append_left _ (List.mem_append_right _
    (List.mem_map_of_mem known)))

/-- Every signal of a field has a width. -/
theorem field_mem_widths {register : RegisterPlan} (planned : register ∈ circuit.plan.registers)
    {field : FieldPlan} (declared : field ∈ register.fields) {signal : Signal}
    (own : signal ∈ fieldSignals field) :
    Signal.entry circuit.bus signal ∈ circuit.widths := by
  unfold Circuit.widths
  rw [ports_eq, declared_items]
  rcases List.mem_cons.mp own with rfl | inner
  · refine List.mem_append_left _ (List.mem_cons_of_mem _ ?_)
    exact List.mem_flatMap.mpr ⟨register, planned, List.mem_map_of_mem declared⟩
  · refine List.mem_append_right _ (List.mem_append_right _ (List.mem_append_right _ ?_))
    refine List.mem_flatMap.mpr ⟨register, planned, List.mem_flatMap.mpr ⟨field, declared, ?_⟩⟩
    rw [(declared_fieldItems _ _ _).mem_iff]
    exact List.mem_map_of_mem inner

/-- A net has the width of the signal that it stands for. -/
theorem get_widths (circuit : Circuit) {map : RegisterMap} {layout : Layout}
    {protocol : Bus.Protocol} (accepted : Accepted map layout protocol circuit.plan)
    (style : circuit.bus.reset = layout.config.registerReset) (signal : Signal)
    (known : signal ∈ circuit.plan.signals)
    (listed : Signal.entry circuit.bus signal ∈ circuit.widths) :
    circuit.widths.get (signal.name circuit.bus.reset) = signal.width circuit.bus := by
  refine Nets.get_of_mem listed ?_
  intro entry member same
  rcases exists_signal_of_mem_widths member with ⟨other, otherKnown, rfl⟩
  unfold Signal.entry at same
  dsimp only at same
  rw [style] at same
  rw [accepted.signal_unique otherKnown known same]
  rfl

end Table

end RegisterBank.Bank
