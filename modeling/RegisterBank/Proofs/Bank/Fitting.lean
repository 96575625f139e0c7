import RegisterBank.Proofs.Bank.Declarations
import RegisterBank.Proofs.Bank.ReadMultiplexer
import RegisterBank.Proofs.Text.Characters

/-!
# The items of a bridge fit

Every part of a bridge fits what is declared before it.  `Provides` is what the
parts behind the Local Bus rely on; each part is taken for any known names that
provide it, so nothing is said twice about the order of the parts.  The read
multiplexer, which comes last, reads nets that the blocks of the fields declare
(`readSource_known`).
-/

namespace RegisterBank.Bank

open RegisterBank.Verilog
open RegisterBank.Bus (Geometry)

/-! ## Comments -/

/-- For a text that is written out: its characters are not taken out of its
bytes again. -/
theorem unbroken_ofList {characters : List Char} (unbroken : '\n' ∉ characters) :
    '\n' ∉ (String.ofList characters).toList := by
  rw [String.toList_ofList]
  exact unbroken

theorem unbroken_append {first second : String} (here : '\n' ∉ first.toList)
    (there : '\n' ∉ second.toList) : '\n' ∉ (first ++ second).toList := by
  rw [String.toList_append, List.mem_append]
  exact fun either => either.elim here there

theorem unbroken_of_isIdentifier {name : String} (identifier : Text.isIdentifier name = true) :
    '\n' ∉ name.toList := by
  obtain ⟨characters, -, -⟩ := characters_of_isIdentifier identifier
  exact fun broken => absurd (characters _ broken) (by decide)

/-- Words without line breaks stay on one line when listed. -/
theorem unbroken_intercalate {separator : String} (between : '\n' ∉ separator.toList)
    {words : List String} (unbroken : ∀ word ∈ words, '\n' ∉ word.toList) :
    '\n' ∉ (separator.intercalate words).toList := by
  have other : ∀ c ∈ (separator.intercalate words).toList, c ≠ '\n' :=
    Text.forall_mem_intercalate (fun c listed => ne_of_mem_of_not_mem listed between)
      fun word member c listed => ne_of_mem_of_not_mem listed (unbroken word member)
  exact fun broken => other _ broken rfl

/-- A field's comment holds names and bits only, and so stays on its line. -/
theorem unbroken_fieldComment {register : RegisterPlan} {plan : FieldPlan}
    (named : Text.isIdentifier register.name = true)
    (fieldNamed : Text.isIdentifier plan.field.name = true) :
    '\n' ∉ (fieldComment register plan).toList := by
  have access : '\n' ∉ plan.field.access.word.toList := by
    cases plan.field.access <;> decide
  have words : ∀ word ∈ plan.field.access.word :: plan.field.modifiers.words,
      '\n' ∉ word.toList := by
    refine List.forall_mem_cons.mpr ⟨access, fun word listed => ?_⟩
    obtain ⟨modifier, -, rfl⟩ := List.mem_map.mp listed
    cases modifier <;> decide
  have bits : '\n' ∉ plan.field.bits.text.toList := fun broken =>
    (onLine_bits plan.field.bits _ broken).1 rfl
  have start : '\n' ∉ (register.name ++ "." ++ plan.field.name ++ " ").toList :=
    unbroken_append (unbroken_append (unbroken_append (unbroken_of_isIdentifier named) (by decide))
      (unbroken_of_isIdentifier fieldNamed)) (by decide)
  exact unbroken_append (unbroken_append (unbroken_append start bits) (by decide))
    (unbroken_intercalate (by decide) words)

/-! ## Known names -/

/-- The names that the parts behind the Local Bus rely on. -/
structure Provides (protocol : Bus.Protocol) (bus : Geometry) (plan : Plan) (known : List String) :
    Prop where
  clock : "clk" ∈ known
  reset : bus.reset.port ∈ known
  interface : protocol.ports.map Bus.Port.name ⊆ known
  localBus : localBusNets ⊆ known
  ports : ∀ register ∈ plan.registers, ∀ field ∈ register.fields, field.port ∈ known
  constants : constantNames plan ⊆ known

section Parts

variable {protocol : Bus.Protocol} {bus : Geometry} {plan : Plan} {known others : List String}

/-- What is provided stays provided as more nets are declared. -/
theorem Provides.mono (provides : Provides protocol bus plan known) (wider : known ⊆ others) :
    Provides protocol bus plan others where
  clock := wider provides.clock
  reset := wider provides.reset
  interface := List.Subset.trans provides.interface wider
  localBus := List.Subset.trans provides.localBus wider
  ports := fun register planned field declared =>
    wider (provides.ports register planned field declared)
  constants := List.Subset.trans provides.constants wider

theorem Provides.net (provides : Provides protocol bus plan known) {name : String}
    (listed : name ∈ localBusNets) : name ∈ known :=
  provides.localBus listed

/-- The states of fields that clear themselves are declared where such a field
is planned. -/
theorem Provides.selfClearing (provides : Provides protocol bus plan known)
    (uses : plan.uses (· == .selfClearing) = true) (state : SelfClearState) :
    state.constant ∈ known := by
  refine provides.constants (List.mem_append_left _ ?_)
  rw [if_pos uses]
  cases state <;> decide

/-- The states of fields that are written once are declared where such a field
is planned. -/
theorem Provides.writeOnce (provides : Provides protocol bus plan known)
    (uses : plan.uses Template.isWriteOnce = true) (state : WriteOnceState) :
    state.constant ∈ known := by
  refine provides.constants (List.mem_append_right _ ?_)
  rw [if_pos uses]
  cases state <;> decide

/-! ## The Local Bus and its front end -/

/-- The states are encoded by single bits. -/
theorem fits_stateConstants (plan : Plan) :
    ItemsFit (localBusWidths bus) known (stateConstants plan) := by
  refine .of_forall fun item listed => ?_
  obtain ⟨_, -, _, small, rfl⟩ := exists_parameter_of_mem listed
  exact small

/-- Every strobe is a bit of its vector. -/
theorem fits_strobes (listed : "lb_wstrb" ∈ known) :
    partsFit (localBusWidths bus) known ((List.range bus.strobeWidth).reverse.map fun byte =>
      .replicate 8 (.select "lb_wstrb" ⟨byte, 1⟩)) := by
  rw [partsFit_iff]
  intro part member
  obtain ⟨byte, inside, rfl⟩ := List.mem_map.mp member
  rw [List.mem_reverse, List.mem_range] at inside
  exact ⟨listed, Nat.zero_lt_one, inside⟩

/-- The local bus needs nothing that is declared before it. -/
theorem fits_localBus (bus : Geometry) :
    ItemsFit (localBusWidths bus) known (localBus bus) := by
  refine ItemsFit.mono (List.nil_subset known) ?_
  simp [localBus, ItemsFit, Item.Fits, Expr.Fits, Item.names, Item.declared?, fits_strobes,
    -List.map_reverse]

/-- The reset is tested through the port of its style. -/
theorem fits_resetCondition {reset : ResetStyle} (listed : reset.port ∈ known) :
    (Bus.resetCondition reset).Fits (localBusWidths bus) known := by
  unfold Bus.resetCondition
  split <;> exact listed

/-- An APB front end reads its own ports and the answers of the local bus. -/
theorem fits_apbFrontEnd (provides : Provides .apb bus plan known) :
    ItemsFit (localBusWidths bus) known Bus.apbFrontEnd := by
  obtain ⟨-, -, interface, nets, -, -⟩ := provides
  simp only [Bus.Protocol.ports, localBusNets, List.map_cons, List.cons_subset] at interface nets
  refine .of_forall (List.forall_mem_cons.mpr ⟨unbroken_ofList (by decide), ?_⟩)
  simp [Item.Fits, Expr.Fits, Bus.net, Bus.bit, interface, nets]

/-- An Avalon front end reads its own ports and the answers of the local bus. -/
theorem fits_ammFrontEnd (provides : Provides .amm bus plan known) :
    ItemsFit (localBusWidths bus) known Bus.ammFrontEnd := by
  obtain ⟨-, -, interface, nets, -, -⟩ := provides
  simp only [Bus.Protocol.ports, localBusNets, List.map_cons, List.cons_subset] at interface nets
  refine .of_forall (List.forall_mem_cons.mpr ⟨unbroken_ofList (by decide), ?_⟩)
  simp [Item.Fits, Expr.Fits, Bus.net, interface, nets]

/-- The write channels of AXI-Lite join address and data, which may come
apart. -/
theorem fits_axilWriteChannels (provides : Provides .axil bus plan known) :
    ItemsFit (localBusWidths bus) known (Bus.axilWriteChannels bus.reset) := by
  obtain ⟨clock, reset, interface, nets, -, -⟩ := provides
  simp only [Bus.Protocol.ports, localBusNets, List.map_cons, List.cons_subset] at interface nets
  refine ⟨unbroken_ofList (by decide), ?_⟩
  simp [ItemsFit, Item.Fits, Stmt.Fits, Expr.Fits, Item.names, Item.declared?, Bus.net, Bus.bit,
    Bus.flipFlop, Bus.follow, eventsFit_sensitivity, fits_resetCondition, clock, reset, interface,
    nets]

/-- The read channels of AXI-Lite keep an answer until it is taken. -/
theorem fits_axilReadChannels (provides : Provides .axil bus plan known) :
    ItemsFit (localBusWidths bus) known (Bus.axilReadChannels bus.reset) := by
  obtain ⟨clock, reset, interface, nets, -, -⟩ := provides
  simp only [Bus.Protocol.ports, localBusNets, List.map_cons, List.cons_subset] at interface nets
  refine ⟨unbroken_ofList (by decide), ?_⟩
  simp [ItemsFit, Item.Fits, Stmt.Fits, Expr.Fits, Item.names, Item.declared?, Bus.net, Bus.bit,
    Bus.flipFlop, Bus.follow, eventsFit_sensitivity, fits_resetCondition, clock, reset, interface,
    nets]

/-- A front end reads and drives nothing but the interface, the Local Bus, and
nets of its own. -/
theorem fits_frontEnd (provides : Provides protocol bus plan known) :
    ItemsFit (localBusWidths bus) known (protocol.frontEnd bus) := by
  cases protocol with
  | apb => exact fits_apbFrontEnd provides
  | amm => exact fits_ammFrontEnd provides
  | axil =>
    have behind := provides.mono (List.subset_append_left known
      ((Bus.axilWriteChannels bus.reset ++ [Item.blank]).flatMap Item.names))
    have write : ItemsFit (localBusWidths bus) known
        (Bus.axilWriteChannels bus.reset ++ [.blank]) :=
      itemsFit_append.mpr ⟨fits_axilWriteChannels provides, trivial, trivial⟩
    exact itemsFit_append.mpr ⟨write, fits_axilReadChannels behind⟩

/-! ## The address decoder -/

/-- Addresses below the end of the address space fit the literals that select
registers. -/
theorem fits_decoder (provides : Provides protocol bus plan known)
    (addresses : ∀ register ∈ plan.registers, register.placed.address < 2 ^ bus.addressWidth) :
    ItemsFit (localBusWidths bus) known (decoder bus.addressWidth plan) := by
  have selected (enable address : String) (register : RegisterPlan)
      (planned : register ∈ plan.registers) (name : String) (enabled : enable ∈ localBusNets)
      (addressed : address ∈ localBusNets) :
      (Bus.follow name (.bitAnd (.net enable) (.paren (.equals (.net address)
        (.hex bus.addressWidth register.placed.address))))).Fits (localBusWidths bus) known := by
    rintro value ⟨⟩
    exact ⟨provides.net enabled, provides.net addressed, addresses register planned⟩
  refine .of_forall (List.forall_mem_cons.mpr ⟨?_, fun item listed => ?_⟩)
  · exact unbroken_ofList (by decide)
  obtain ⟨register, planned, own⟩ := List.mem_flatMap.mp listed
  rcases List.mem_cons.mp own with rfl | own
  · exact selected "lb_wen" "lb_waddr" register planned _ (by decide) (by decide)
  · rw [List.mem_singleton.mp own]
    exact selected "lb_ren" "lb_raddr" register planned _ (by decide) (by decide)

/-! ## Fields -/

/-- A plan uses the template of each field that it has. -/
theorem Plan.uses_of_mem {register : RegisterPlan} (planned : register ∈ plan.registers)
    {field : FieldPlan} (declared : field ∈ register.fields) {test : Template → Bool}
    (passes : test field.template = true) : plan.uses test = true :=
  List.any_eq_true.mpr ⟨field, List.mem_flatMap.mpr ⟨register, planned, declared⟩, passes⟩

/-- A clocked block fits where both of its branches do. -/
theorem fits_clocked (provides : Provides protocol bus plan known) {onReset otherwise : Stmt}
    (first : onReset.Fits (localBusWidths bus) known)
    (second : otherwise.Fits (localBusWidths bus) known) :
    (clocked bus.reset onReset otherwise).Fits (localBusWidths bus) known :=
  ⟨eventsFit_sensitivity provides.clock provides.reset, fits_resetCondition provides.reset, first,
    second⟩

theorem fits_declareValue (field : FieldPlan) :
    (declareValue field).Fits (localBusWidths bus) known :=
  fun _ given => nomatch given

theorem fits_flipFlop (name : String) :
    (Bus.flipFlop name).Fits (localBusWidths bus) known :=
  fun _ given => nomatch given

section Fields

variable {register : RegisterPlan} {field : FieldPlan}

theorem fits_zeroOf (field : FieldPlan) : (zeroOf field).Fits (localBusWidths bus) known :=
  Nat.two_pow_pos _

/-- Initial values fit the widths of their fields. -/
theorem fits_initialOf (sound : field.Sound bus.dataWidth) :
    (initialOf field).Fits (localBusWidths bus) known :=
  sound.valid.initial_lt

/-- The bits of a field lie in the data and in the mask of a write. -/
theorem fits_writtenBits (provides : Provides protocol bus plan known)
    (sound : field.Sound bus.dataWidth) : (writtenBits field).Fits (localBusWidths bus) known :=
  ⟨⟨provides.net (by decide), sound.valid.width_pos, sound.above_le⟩,
    provides.net (by decide), sound.valid.width_pos, sound.above_le⟩

/-- Merging reads the mask, the data and the value itself. -/
theorem fits_mergedBits (provides : Provides protocol bus plan known)
    (sound : field.Sound bus.dataWidth) (value : field.valueNet ∈ known) :
    (mergedBits field).Fits (localBusWidths bus) known :=
  ⟨⟨value, provides.net (by decide), sound.valid.width_pos, sound.above_le⟩,
    fits_writtenBits provides sound⟩

/-- A sticky field collects its port and is cleared by reads of its register. -/
theorem fits_stickyItems (provides : Provides protocol bus plan known)
    (sound : field.Sound bus.dataWidth) (select : register.readSelect ∈ known)
    (port : field.port ∈ known) :
    ItemsFit (localBusWidths bus) known (stickyItems bus.reset register.readSelect field) := by
  have wider : known ⊆ known ++ [field.valueNet] := List.subset_append_left _ _
  have value : field.valueNet ∈ known ++ [field.valueNet] :=
    List.mem_append_right _ List.mem_cons_self
  refine ⟨fits_declareValue field, fits_clocked (provides.mono wider) ?_ ?_, trivial⟩
  · exact ⟨value, fits_initialOf sound⟩
  · exact ⟨⟨value, ⟨wider select, fits_zeroOf field, value⟩, wider port⟩, trivial⟩

/-- A stored field takes writes, and may be cleared by reads or lock itself. -/
theorem fits_storedItems (provides : Provides protocol bus plan known)
    (sound : field.Sound bus.dataWidth) (select : register.readSelect ∈ known)
    (port : field.port ∈ known) (enable : field.enableNet ∈ known) (readClear writeOnce : Bool)
    (states : writeOnce = true → ∀ state : WriteOnceState, state.constant ∈ known) :
    ItemsFit (localBusWidths bus) known
      (storedItems bus.reset register.readSelect field readClear writeOnce) := by
  have clear (others : List String) (select : register.readSelect ∈ others)
      (value : field.valueNet ∈ others) : Stmt.Fits (localBusWidths bus) others
      (if readClear then
        .branch (.net register.readSelect) (.set field.valueNet 0 (zeroOf field)) .skip
      else .skip) := by
    cases readClear
    · trivial
    · exact ⟨select, ⟨value, fits_zeroOf field⟩, trivial⟩
  cases writeOnce with
  | false =>
    have wider : known ⊆ known ++ [field.valueNet] := List.subset_append_left _ _
    have value : field.valueNet ∈ known ++ [field.valueNet] :=
      List.mem_append_right _ List.mem_cons_self
    refine ⟨fits_declareValue field, fits_clocked (provides.mono wider) ?_ ?_, ?_, trivial⟩
    · exact ⟨value, fits_initialOf sound⟩
    · exact ⟨wider enable, ⟨value, fits_mergedBits (provides.mono wider) sound value⟩,
        clear _ (wider select) value⟩
    · exact ⟨List.mem_append_left _ (wider port), List.mem_append_left _ value⟩
  | true =>
    have wider : known ⊆ known ++ [field.valueNet] ++ [field.stateNet] := by
      rw [List.append_assoc]
      exact List.subset_append_left _ _
    have value : field.valueNet ∈ known ++ [field.valueNet] ++ [field.stateNet] :=
      List.mem_append_left _ (List.mem_append_right _ List.mem_cons_self)
    have state : field.stateNet ∈ known ++ [field.valueNet] ++ [field.stateNet] :=
      List.mem_append_right _ List.mem_cons_self
    have constant (state : WriteOnceState) := wider (states rfl state)
    refine ⟨fits_declareValue field, fits_flipFlop _, fits_clocked (provides.mono wider) ?_ ?_, ?_,
      trivial⟩
    · exact ⟨⟨value, fits_initialOf sound⟩, state, constant .unlocked⟩
    · exact ⟨⟨wider enable, state, constant .unlocked⟩,
        ⟨⟨value, fits_mergedBits (provides.mono wider) sound value⟩, state, constant .locked⟩,
        clear _ (wider select) value⟩
    · exact ⟨List.mem_append_left _ (wider port), List.mem_append_left _ value⟩

/-- A field that clears itself steps through two states. -/
theorem fits_selfClearingItems (provides : Provides protocol bus plan known)
    (sound : field.Sound bus.dataWidth) (port : field.port ∈ known)
    (enable : field.enableNet ∈ known)
    (states : ∀ state : SelfClearState, state.constant ∈ known) :
    ItemsFit (localBusWidths bus) known (selfClearingItems bus.reset field) := by
  have wider : known ⊆ known ++ [field.stateNet] ++ [field.valueNet] := by
    rw [List.append_assoc]
    exact List.subset_append_left _ _
  have state : field.stateNet ∈ known ++ [field.stateNet] ++ [field.valueNet] :=
    List.mem_append_left _ (List.mem_append_right _ List.mem_cons_self)
  have value : field.valueNet ∈ known ++ [field.stateNet] ++ [field.valueNet] :=
    List.mem_append_right _ List.mem_cons_self
  have constant (state : SelfClearState) := wider (states state)
  have rest : Stmt.Fits (localBusWidths bus) (known ++ [field.stateNet] ++ [field.valueNet])
      (.seq (.set field.stateNet 0 (.net SelfClearState.idle.constant))
        (.set field.valueNet 0 (zeroOf field))) :=
    ⟨⟨state, constant .idle⟩, value, fits_zeroOf field⟩
  refine ⟨fits_flipFlop _, fits_declareValue field, fits_clocked (provides.mono wider) rest ?_, ?_,
    trivial⟩
  · refine ⟨⟨state, constant .idle, ?_, rest⟩, trivial⟩
    exact ⟨wider enable, ⟨⟨state, constant .asserted⟩, value,
      fits_writtenBits (provides.mono wider) sound⟩, trivial⟩
  · exact ⟨List.mem_append_left _ (wider port), List.mem_append_left _ value⟩

/-- The block of a field fits behind the selects of its register. -/
theorem fits_fieldItems (provides : Provides protocol bus plan known)
    (planned : register ∈ plan.registers) (declared : field ∈ register.fields)
    (sound : field.Sound bus.dataWidth) (named : Text.isIdentifier register.name = true)
    (portNamed : Text.isIdentifier field.port = true)
    (write : register.writeSelect ∈ known) (read : register.readSelect ∈ known) :
    ItemsFit (localBusWidths bus) known (fieldItems bus.reset register field) := by
  have port := provides.ports register planned field declared
  have wider : known ⊆ known ++ [field.enableNet] := List.subset_append_left _ _
  have enable : field.enableNet ∈ known ++ [field.enableNet] :=
    List.mem_append_right _ List.mem_cons_self
  have enabled : (Bus.follow field.enableNet (.bitAnd (.net register.writeSelect)
      (.paren (.anyBit (.select "lb_wmask" field.field.bits))))).Fits (localBusWidths bus)
        known := by
    rintro value ⟨⟩
    exact ⟨write, provides.net (by decide), sound.valid.width_pos, sound.above_le⟩
  have behind {body : List Item} (fit : ItemsFit (localBusWidths bus) known body) :
      ItemsFit (localBusWidths bus) known
        ([.blank, .comment (fieldComment register field)] ++ body) :=
    itemsFit_append.mpr ⟨⟨trivial, unbroken_fieldComment named sound.valid.name, trivial⟩,
      fit.mono (List.subset_append_left _ _)⟩
  -- An output is written, and its block stands behind the enable of the write.
  have written {body : List Item}
      (fit : ItemsFit (localBusWidths bus) (known ++ [field.enableNet]) body) :
      ItemsFit (localBusWidths bus) known ([.blank, .comment (fieldComment register field)]
        ++ [Bus.follow field.enableNet (.bitAnd (.net register.writeSelect)
          (.paren (.anyBit (.select "lb_wmask" field.field.bits))))] ++ body) :=
    itemsFit_append.mpr ⟨behind ⟨enabled, trivial⟩, fit⟩
  unfold fieldItems
  cases template : field.template with
  | hardwareDriven =>
    have driven : '\n' ∉ ("driven by " ++ field.port).toList :=
      unbroken_append (by decide) (unbroken_of_isIdentifier portNamed)
    exact behind ⟨driven, trivial⟩
  | sticky => exact behind (fits_stickyItems provides sound read port)
  | stored readClear writeOnce =>
    refine written (fits_storedItems (provides.mono wider) sound (wider read) (wider port) enable
      readClear writeOnce fun once state => wider (provides.writeOnce ?_ state))
    exact Plan.uses_of_mem planned declared (by rw [template]; exact once)
  | selfClearing =>
    refine written (fits_selfClearingItems (provides.mono wider) sound (wider port) enable
      fun state => wider (provides.selfClearing ?_ state))
    exact Plan.uses_of_mem planned declared (by rw [template]; rfl)
  | pulse =>
    exact written ⟨⟨wider port, enable, fits_writtenBits (provides.mono wider) sound,
      fits_zeroOf field⟩, trivial⟩

end Fields

/-! ## The read multiplexer -/

/-- The word of a register is put together from nets that its fields declare. -/
theorem fits_readWordExpr {dataWidth readFiller : Nat} {register : RegisterPlan}
    (sources : ∀ field ∈ register.fields, readsBack field.field = true →
      field.readSource ∈ known) :
    (readWordExpr dataWidth readFiller register).Fits (localBusWidths bus) known := by
  unfold readWordExpr
  rw [Expr.Fits, partsFit_iff]
  intro part member
  obtain ⟨segment, listed, rfl⟩ := List.mem_map.mp member
  cases segment with
  | field field =>
    obtain ⟨declared, readable⟩ :=
      RegisterPlan.mem_readableFields_iff.mp (RegisterPlan.mem_of_mem_segmentsBelow listed)
    exact sources field declared readable
  | filler lsb width => exact Bits.extract_lt _ _ _

/-- By induction on the registers: each arm fits, and so does the word for all
other addresses. -/
theorem fits_readArms {readFiller : Nat} {registers : List RegisterPlan}
    (data : "lb_rdata" ∈ known) (filler : readFiller < 2 ^ bus.dataWidth)
    (addresses : ∀ register ∈ registers, register.placed.address < 2 ^ bus.addressWidth)
    (sources : ∀ register ∈ registers, ∀ field ∈ register.fields,
      readsBack field.field = true → field.readSource ∈ known) :
    (readArms bus readFiller registers).Fits (localBusWidths bus) known := by
  induction registers with
  | nil => exact ⟨data, filler⟩
  | cons register rest ih =>
    obtain ⟨address, behind⟩ := List.forall_mem_cons.mp addresses
    obtain ⟨source, others⟩ := List.forall_mem_cons.mp sources
    exact ⟨address, ⟨data, fits_readWordExpr source⟩, ih behind others⟩

/-- The multiplexer reads words and fillers that fit the data bus. -/
theorem fits_readMultiplexer {readFiller : Nat} (provides : Provides protocol bus plan known)
    (filler : readFiller < 2 ^ bus.dataWidth)
    (addresses : ∀ register ∈ plan.registers, register.placed.address < 2 ^ bus.addressWidth)
    (sources : ∀ register ∈ plan.registers, ∀ field ∈ register.fields,
      readsBack field.field = true → field.readSource ∈ known) :
    ItemsFit (localBusWidths bus) known (readMultiplexer bus readFiller plan) := by
  have net (name : String) (listed : name ∈ localBusNets) : name ∈ known := provides.net listed
  refine .of_forall (List.forall_mem_cons.mpr ⟨?_, List.forall_mem_singleton.mpr ?_⟩)
  · exact unbroken_ofList (by decide)
  · refine fits_clocked provides ?_ ?_
    · exact ⟨⟨net _ (by decide), (by decide : 0 < 2 ^ 1)⟩, net _ (by decide), filler⟩
    · exact ⟨⟨net _ (by decide), net _ (by decide)⟩, net _ (by decide),
        ⟨net _ (by decide), fits_readArms (net _ (by decide)) filler addresses sources⟩, trivial⟩

end Parts

/-! ## The bank and the bridge -/

section Accepted

variable {map : RegisterMap} {layout : Layout} {protocol : Bus.Protocol} {plan : Plan}
  {known : List String}

/-- Placed registers lie inside the address space. -/
theorem Accepted.address_lt (accepted : Accepted map layout protocol plan) :
    ∀ register ∈ plan.registers, register.placed.address < 2 ^ layout.addressWidth := by
  obtain ⟨addresses, puts, -, bounded⟩ := accepted.puts
  intro register planned
  obtain ⟨placed, listed, rfl⟩ := accepted.exists_placed planned
  rw [puts.addressWidth]
  refine bounded _ ?_
  rw [← puts.addresses]
  exact List.mem_map_of_mem listed

/-- Registers are named by identifiers in an accepted plan. -/
theorem Accepted.isIdentifier_name (accepted : Accepted map layout protocol plan)
    {register : RegisterPlan} (planned : register ∈ plan.registers) :
    Text.isIdentifier register.name = true := by
  obtain ⟨placed, listed, rfl⟩ := accepted.exists_placed planned
  exact (accepted.built.valid.registers _ (accepted.register_mem listed)).name

/-- Ports are named by identifiers, which prefix and case leave intact. -/
theorem Accepted.isIdentifier_port (accepted : Accepted map layout protocol plan)
    {register : RegisterPlan} (planned : register ∈ plan.registers) {field : FieldPlan}
    (declared : field ∈ register.fields) : Text.isIdentifier field.port = true := by
  have claimed : Signal.port field ∈ plan.claimedSignals :=
    List.mem_cons_of_mem _ (List.mem_append_right _ (List.mem_flatMap.mpr
      ⟨register, planned, List.mem_cons_of_mem _ (List.mem_cons_of_mem _
        (List.mem_flatMap.mpr ⟨field, declared, List.mem_cons_self⟩))⟩))
  exact (accepted.grantable field.port ((Accepted.map_name_sublist layout protocol plan).subset
    (List.mem_map_of_mem claimed))).identifier

/-- What is read back is a port, or declared by the block of its field. -/
theorem readSource_declared (accepted : Accepted map layout protocol plan)
    {register : RegisterPlan} (planned : register ∈ plan.registers) {field : FieldPlan}
    (declared : field ∈ register.fields) (readable : readsBack field.field = true) :
    field.readSource = field.port ∨
      field.readSource ∈
        (fieldItems layout.geometry.reset register field).flatMap Item.names := by
  rcases readSource_mem accepted planned declared readable with
    ⟨-, source⟩ | ⟨-, stored, source⟩
  · exact Or.inl source
  · rw [source, (names_fieldItems layout.geometry register field).mem_iff]
    exact Or.inr (by simp [FieldPlan.internalNets, stored])

/-- All items behind the front end fit where the module's ports and the local
bus are declared. -/
theorem fits_bankItems (accepted : Accepted map layout protocol plan)
    (provides : Provides protocol layout.geometry plan known) :
    ItemsFit (localBusWidths layout.geometry) known
      (bankItems layout.geometry layout.config.readFiller plan) := by
  have addresses := accepted.address_lt
  unfold bankItems
  rw [itemsFit_append, itemsFit_append, names_decoder]
  refine ⟨⟨fits_decoder provides addresses, ?_⟩, trivial, ?_⟩
  · have selects : Provides protocol layout.geometry plan (known ++
        plan.registers.flatMap fun register => [register.writeSelect, register.readSelect]) :=
      provides.mono (List.subset_append_left _ _)
    refine .flatMap fun register planned => .flatMap fun field declared => ?_
    have own (select : String) (listed : select ∈ [register.writeSelect, register.readSelect]) :
        select ∈ known ++ plan.registers.flatMap fun register =>
          [register.writeSelect, register.readSelect] :=
      List.mem_append_right _ (List.mem_flatMap.mpr ⟨register, planned, listed⟩)
    exact fits_fieldItems selects planned declared
      ((accepted.sound register planned).fields field declared)
      (accepted.isIdentifier_name planned) (accepted.isIdentifier_port planned declared)
      (own _ List.mem_cons_self) (own _ (List.mem_cons_of_mem _ List.mem_cons_self))
  · have wider : known ⊆ known ++ (decoder layout.addressWidth plan ++
        plan.registers.flatMap fun register =>
          register.fields.flatMap (fieldItems layout.geometry.reset register)).flatMap Item.names
            ++ Item.names .blank := by
      rw [List.append_assoc]
      exact List.subset_append_left _ _
    refine fits_readMultiplexer (provides.mono wider) accepted.readFiller_lt addresses ?_
    intro register planned field declared readable
    rcases readSource_declared accepted planned declared readable with port | net
    · rw [port]
      exact wider (provides.ports register planned field declared)
    · obtain ⟨item, own, named⟩ := List.mem_flatMap.mp net
      refine List.mem_append_left _ (List.mem_append_right _ (List.mem_flatMap.mpr
        ⟨item, List.mem_append_right _ ?_, named⟩))
      exact List.mem_flatMap.mpr ⟨register, planned, List.mem_flatMap.mpr ⟨field, declared, own⟩⟩

/-! ## The bridge -/

/-- A group of ports is headed by one comment. -/
theorem portsFit_portGroup {comment : String} {ports : List ModulePort}
    (unbroken : '\n' ∉ comment.toList) (plain : ∀ port ∈ ports, port.comment? = none) :
    portsFit (portGroup comment ports) := by
  cases ports with
  | nil => exact fun port listed => nomatch listed
  | cons first rest =>
    obtain ⟨-, behind⟩ := List.forall_mem_cons.mp plain
    refine List.forall_mem_cons.mpr ⟨?_, ?_⟩
    · rintro text ⟨⟩
      exact unbroken
    · intro port listed text given
      rw [behind port listed] at given
      cases given

theorem unbroken_title (protocol : Bus.Protocol) : '\n' ∉ protocol.title.toList := by
  cases protocol <;> decide

/-- All comments in the list of ports stay on their lines. -/
theorem portsFit_bridge (accepted : Accepted map layout protocol plan) (mapName : String) :
    portsFit (layout.bridge protocol plan mapName).ports := by
  have title : '\n' ∉ (protocol.title ++ " interface").toList :=
    unbroken_append (unbroken_title protocol) (by decide)
  refine List.forall_mem_append.mpr ⟨List.forall_mem_append.mpr
    ⟨portsFit_portGroup (by decide) ?_, portsFit_portGroup title ?_⟩, fun port listed => ?_⟩
  · exact List.forall_mem_cons.mpr ⟨rfl, List.forall_mem_singleton.mpr rfl⟩
  · intro port listed
    obtain ⟨inner, -, rfl⟩ := List.mem_map.mp listed
    rfl
  · obtain ⟨register, planned, own⟩ := List.mem_flatMap.mp listed
    have comment : '\n' ∉ ("Register " ++ register.name).toList :=
      unbroken_append (by decide) (unbroken_of_isIdentifier (accepted.isIdentifier_name planned))
    refine portsFit_portGroup comment (fun other member => ?_) port own
    obtain ⟨field, -, rfl⟩ := List.mem_map.mp member
    rfl

theorem unbroken_comments (protocol : Bus.Protocol) {mapName : String}
    (named : Text.isIdentifier mapName = true) :
    ∀ text ∈ (layout.bridge protocol plan mapName).toModule.comments, '\n' ∉ text.toList := by
  have title : '\n' ∉ (protocol.title ++ " bridge to the Local Bus of register map '").toList :=
    unbroken_append (unbroken_title protocol) (unbroken_ofList (by decide))
  refine List.forall_mem_cons.mpr
    ⟨unbroken_ofList (by decide), List.forall_mem_singleton.mpr ?_⟩
  exact unbroken_append (unbroken_append title (unbroken_of_isIdentifier named)) (by decide)

/-- Later items only add names. -/
theorem subset_names_append (known : List String) (items later : List Item) :
    known ++ items.flatMap Item.names ⊆ known ++ (items ++ later).flatMap Item.names := by
  rw [List.flatMap_append, ← List.append_assoc]
  exact List.subset_append_left _ _

/-- The ports, the constants and the Local Bus are what the other parts rely
on. -/
theorem provides_bridge (layout : Layout) (protocol : Bus.Protocol) (plan : Plan)
    (mapName : String) :
    Provides protocol layout.geometry plan
      ((layout.bridge protocol plan mapName).ports.map ModulePort.name
        ++ (stateConstants plan ++ localBus layout.geometry).flatMap Item.names) := by
  rw [map_name_ports, List.flatMap_append, names_stateConstants, names_localBus]
  have ahead {names later : List String} : names ⊆ names ++ later := List.subset_append_left _ _
  have behind {names earlier : List String} : names ⊆ earlier ++ names :=
    List.subset_append_right _ _
  exact
    { clock := ahead (ahead (ahead List.mem_cons_self))
      reset := ahead (ahead (ahead (List.mem_cons_of_mem _ List.mem_cons_self)))
      interface := fun name listed => ahead (ahead (behind listed))
      localBus := fun name listed => behind (behind listed)
      ports := fun register planned field declared => ahead (behind (List.mem_flatMap.mpr
        ⟨register, planned, List.mem_map_of_mem declared⟩))
      constants := fun name listed => behind (ahead listed) }

/-- The module of an accepted plan fits, so that its text can be read back. -/
theorem fits_bridge (accepted : Accepted map layout protocol plan) {mapName : String}
    (named : Text.isIdentifier mapName = true) :
    (layout.bridge protocol plan mapName).toModule.Fits (localBusWidths layout.geometry) where
  comments := unbroken_comments protocol named
  name := isIdentifier_moduleName protocol named
  ports := portsFit_bridge accepted mapName
  declarables := declarables_bridge accepted mapName
  items := by
    have provides := provides_bridge layout protocol plan mapName
    have front := provides.mono (subset_names_append _ _ [.blank])
    have bank := front.mono
      (subset_names_append _ _ (protocol.frontEnd layout.geometry ++ [.blank]))
    have blank (known : List String) : ItemsFit (localBusWidths layout.geometry) known [.blank] :=
      ⟨trivial, trivial⟩
    rw [← List.append_assoc] at bank
    show ItemsFit _ _ (stateConstants plan ++ localBus layout.geometry ++ [.blank]
      ++ protocol.frontEnd layout.geometry ++ [.blank]
      ++ bankItems layout.geometry layout.config.readFiller plan)
    simp only [itemsFit_append]
    exact ⟨⟨⟨⟨⟨fits_stateConstants plan, fits_localBus _⟩, blank _⟩, fits_frontEnd front⟩, blank _⟩,
      fits_bankItems accepted bank⟩

end Accepted

end RegisterBank.Bank
