import RegisterBank.Proofs.Bank.Drivers
import RegisterBank.Proofs.Bank.Widths
import RegisterBank.Proofs.Bits

/-!
# The nets of a bank during a cycle

What the nets of a bank show once they have settled, in terms of the request on
the Local Bus and of the values that the flip-flops and the input ports hold.
The continuous assignments are opened here and nowhere else: each is an
equation between settled nets, by the order that `group_drivers` gives them.
-/

namespace RegisterBank.Bank

open RegisterBank.Verilog
open RegisterBank.Bus (Geometry)

/-! ## Requests on the Local Bus -/

/-- The write that a request carries to an address. -/
def Request.writeAt? (request : Request) (address : Nat) : Option BusWrite :=
  request.write?.filter fun write => write.address == address

/-- Nets of the Local Bus that carry a request. -/
structure Carries (request : Request) (nets : Nets) : Prop where
  writeEnable : nets.get "lb_wen" = truth request.write?.isSome
  write : ∀ write, request.write? = some write →
    nets.get "lb_waddr" = write.address ∧ nets.get "lb_wdata" = write.data ∧
      Bits.strobeMask (nets.get "lb_wstrb") = write.mask
  readEnable : nets.get "lb_ren" = truth request.readAddress?.isSome
  read : ∀ address, request.readAddress? = some address → nets.get "lb_raddr" = address

/-- The nets that a request drives. -/
def requestNets : List String :=
  ["lb_wen", "lb_waddr", "lb_wdata", "lb_wstrb", "lb_ren", "lb_raddr"]

/-- The request's nets hold the request after it is driven. -/
theorem carries_driveRequest (request : Request) (values : Nets) :
    Carries request (Circuit.driveRequest request values) := by
  constructor <;> cases request <;>
    simp [Circuit.driveRequest, Request.write?, Request.readAddress?, truth, Nets.get_set_self,
      Nets.get_set_of_ne]

/-- Driving a request leaves all other nets alone. -/
theorem get_driveRequest {name : String} (other : name ∉ requestNets) (request : Request)
    (values : Nets) : (Circuit.driveRequest request values).get name = values.get name := by
  simp only [requestNets, List.mem_cons, List.not_mem_nil, or_false, not_or] at other
  obtain ⟨wen, waddr, wdata, wstrb, ren, raddr⟩ := other
  cases request <;>
    simp only [Circuit.driveRequest, Request.readAddress?, Nets.get_set_of_ne _ _ (Ne.symm wen),
      Nets.get_set_of_ne _ _ (Ne.symm waddr), Nets.get_set_of_ne _ _ (Ne.symm wdata),
      Nets.get_set_of_ne _ _ (Ne.symm wstrb), Nets.get_set_of_ne _ _ (Ne.symm ren),
      Nets.get_set_of_ne _ _ (Ne.symm raddr)]

/-- Whether a request is carried is seen on its own nets only. -/
theorem Carries.congr {request : Request} {nets others : Nets} (carries : Carries request nets)
    (agree : ∀ name ∈ requestNets, others.get name = nets.get name) : Carries request others where
  writeEnable := by
    rw [agree "lb_wen" (by decide)]
    exact carries.writeEnable
  write := by
    rw [agree "lb_waddr" (by decide), agree "lb_wdata" (by decide), agree "lb_wstrb" (by decide)]
    exact carries.write
  readEnable := by
    rw [agree "lb_ren" (by decide)]
    exact carries.readEnable
  read := by
    rw [agree "lb_raddr" (by decide)]
    exact carries.read

/-! ## Single bits -/

theorem truth_and (left right : Bool) : truth left &&& truth right = truth (left && right) := by
  cases left <;> cases right <;> rfl

theorem truth_ne_zero (condition : Bool) : (truth condition != 0) = condition := by
  cases condition <;> rfl

theorem truth_and_ones (condition : Bool) : truth condition &&& Bits.ones 1 = truth condition := by
  cases condition <;> rfl

/-- The bits of a byte that is all on or all off. -/
theorem testBit_copies {bit : Nat} (small : bit < 2) (count i : Nat) :
    (copies 1 bit count).testBit i = (decide (i < count) && bit.testBit 0) := by
  have off : ∀ i, bit.testBit (i + 1) = false := fun i =>
    Bits.testBit_of_lt small (Nat.le_add_left 1 i)
  induction count generalizing i with
  | zero => simp [copies]
  | succ count ih =>
    unfold copies
    rw [Nat.testBit_or, Nat.testBit_shiftLeft]
    cases i with
    | zero => simp
    | succ i =>
      rw [off, Nat.add_sub_cancel, ih]
      simp

theorem partsWidth_mask (widths : Nets) (bytes : Nat) :
    partsWidth widths ((List.range bytes).reverse.map fun byte =>
      .replicate 8 (.select "lb_wstrb" ⟨byte, 1⟩)) = 8 * bytes := by
  induction bytes with
  | zero => rfl
  | succ bytes ih =>
    rw [List.range_succ, List.reverse_append, List.reverse_singleton, List.singleton_append,
      List.map_cons, partsWidth, ih]
    show 8 * 1 + 8 * bytes = 8 * (bytes + 1)
    omega

/-- Strobes side by side, each eight times, give every bit the strobe of its
byte. -/
theorem testBit_mask (widths nets : Nets) (bytes i : Nat) :
    (partsValue widths nets ((List.range bytes).reverse.map fun byte =>
        .replicate 8 (.select "lb_wstrb" ⟨byte, 1⟩))).testBit i =
      (decide (i < 8 * bytes) && (nets.get "lb_wstrb").testBit (i / 8)) := by
  -- On the bytes; the highest strobe stands in front of the spread of the others.
  induction bytes with
  | zero => simp [partsValue]
  | succ bytes ih =>
    have small : Bits.extract (nets.get "lb_wstrb") bytes 1 < 2 := Bits.extract_lt _ _ 1
    have strobe : (Bits.extract (nets.get "lb_wstrb") bytes 1).testBit 0 =
        (nets.get "lb_wstrb").testBit bytes := by
      rw [Bits.testBit_extract]
      simp [Bits.wordWidth]
    rw [List.range_succ, List.reverse_append, List.reverse_singleton, List.singleton_append,
      List.map_cons, partsValue, partsWidth_mask, Nat.testBit_or, Nat.testBit_shiftLeft, ih,
      Expr.value, Expr.width, Expr.value, testBit_copies small, strobe]
    by_cases high : 8 * bytes ≤ i
    · by_cases inside : i < 8 * (bytes + 1)
      · have byte : i / 8 = bytes := by omega
        have offset : i - 8 * bytes < 8 := by omega
        simp [high, inside, byte, offset]
      · have offset : ¬ i - 8 * bytes < 8 := by omega
        have above : ¬ i < 8 * bytes := by omega
        simp [inside, offset, above]
    · have inside : i < 8 * (bytes + 1) := by omega
      have below : i < 8 * bytes := by omega
      simp [high, inside, below]

/-- The reset condition tests the port against the level of its style. -/
theorem resetCondition_value {widths nets : Nets} {style : ResetStyle} {isReset : Bool}
    (level : nets.get style.port = Circuit.resetLevel style isReset) :
    ((Bus.resetCondition style).value widths nets != 0) = isReset := by
  unfold Bus.resetCondition
  unfold Circuit.resetLevel at level
  cases low : style.isActiveLow with
  | true =>
    rw [low] at level
    rw [if_pos rfl, Expr.value, Expr.value, level]
    cases isReset <;> rfl
  | false =>
    rw [low] at level
    rw [if_neg Bool.false_ne_true, Expr.value, level]
    cases isReset <;> rfl

/-! ## Settled nets -/

/-- The circuit of a layout with a plan. -/
def Circuit.of (layout : Layout) (plan : Plan) (values : Nets) : Circuit :=
  ⟨plan, layout.geometry, layout.config.readFiller, values⟩

/-- A signal that keeps the value of its flip-flops or of its input port. -/
def Signal.IsHeld : Signal → Prop
  | .value _ | .state _ => True
  | .port field => field.template.direction = .input
  | .bus name => name = "lb_rdata" ∨ name = "lb_rvalid"
  | .constant _ | .reset | .writeSelect _ | .readSelect _ | .enable _ => False

/-- The settled nets of a bank during a cycle with a request. -/
structure Shows (layout : Layout) (plan : Plan) (values : Nets) (isReset : Bool)
    (request : Request) (nets : Nets) : Prop where
  carries : Carries request nets
  reset : nets.get layout.config.registerReset.port =
    Circuit.resetLevel layout.config.registerReset isReset
  held : ∀ signal ∈ plan.signals, signal.IsHeld →
    nets.get (signal.name layout.config.registerReset) =
      values.get (signal.name layout.config.registerReset)
  selfClear : plan.uses (· == .selfClearing) = true → ∀ state : SelfClearState,
    nets.get state.constant = state.encoding
  writeOnce : plan.uses Template.isWriteOnce = true → ∀ state : WriteOnceState,
    nets.get state.constant = state.encoding
  writeSelect : ∀ register ∈ plan.registers, nets.get register.writeSelect =
    truth (request.writeAt? register.placed.address).isSome
  readSelect : ∀ register ∈ plan.registers, nets.get register.readSelect =
    truth (request.readAddress? == some register.placed.address)
  mask : ∀ i < layout.dataWidth, (nets.get "lb_wmask").testBit i =
    (Bits.strobeMask (nets.get "lb_wstrb")).testBit i
  enable : ∀ register ∈ plan.registers, ∀ field ∈ register.fields,
    field.template.direction = .output → nets.get field.enableNet =
      truth ((request.writeAt? register.placed.address).isSome &&
        Bits.extract (nets.get "lb_wmask") field.field.bits.lsb field.field.bits.width != 0)
  port : ∀ register ∈ plan.registers, ∀ field ∈ register.fields,
    field.template.direction = .output → nets.get field.port =
      (portExpr field).value (Circuit.of layout plan values).widths nets
        &&& Bits.ones field.field.bits.width

section Settle

variable {map : RegisterMap} {layout : Layout} {protocol : Bus.Protocol} {plan : Plan}
  (accepted : Accepted map layout protocol plan) (values : Nets) (isReset : Bool)
  (request : Request)

/-- Settling drives the ports and then runs the drivers once. -/
theorem settled_eq (layout : Layout) (plan : Plan) (values : Nets) (isReset : Bool)
    (request : Request) :
    (Circuit.of layout plan values).settled isReset request =
      settle (Circuit.of layout plan values).widths (drivers layout.geometry plan)
        (Circuit.driveRequest request (values.set layout.config.registerReset.port
          (Circuit.resetLevel layout.config.registerReset isReset))) := by
  unfold Circuit.settled
  rw [settle_filter, filter_items]
  rfl

/-- Drivers of a field are drivers of the bank. -/
theorem field_mem_drivers {register : RegisterPlan} (planned : register ∈ plan.registers)
    {field : FieldPlan} (declared : field ∈ register.fields) {item : Item}
    (own : item ∈ fieldDrivers register field) : item ∈ drivers layout.geometry plan :=
  List.mem_append_right _ (List.mem_flatMap.mpr
    ⟨register, planned, List.mem_flatMap.mpr ⟨field, declared, own⟩⟩)

include accepted

/-- A signal that is not assigned continuously is as the request leaves it. -/
theorem get_undriven {signal : Signal} (known : signal ∈ plan.signals)
    (undriven : ¬ signal.IsDriven) :
    ((Circuit.of layout plan values).settled isReset request).get
        (signal.name layout.config.registerReset) =
      (Circuit.driveRequest request (values.set layout.config.registerReset.port
        (Circuit.resetLevel layout.config.registerReset isReset))).get
          (signal.name layout.config.registerReset) := by
  rw [settled_eq]
  refine get_settle_of_forall ?_
  intro item listed assigns
  obtain ⟨other, otherKnown, driven, same⟩ :=
    (group_drivers accepted layout.geometry).targets item listed _ assigns
  rw [accepted.signal_unique otherKnown known same] at driven
  exact undriven driven

/-- A continuous assignment holds as an equation. -/
theorem get_driven {item : Item} (listed : item ∈ drivers layout.geometry plan) {name : String}
    {value : Nat}
    (assigned : item.settled? (Circuit.of layout plan values).widths
      ((Circuit.of layout plan values).settled isReset request) = some (name, value)) :
    ((Circuit.of layout plan values).settled isReset request).get name = value := by
  rw [settled_eq] at assigned ⊢
  exact get_settle_of_mem (group_drivers accepted layout.geometry).ordered listed assigned

/-- The nets that a request drives are signals of the Local Bus. -/
theorem eq_bus_of_mem_requestNets {signal : Signal} (known : signal ∈ plan.signals)
    (listed : signal.name layout.config.registerReset ∈ requestNets) :
    ∃ name ∈ requestNets, signal = .bus name := by
  have inside : ∀ name ∈ requestNets, name ∈ localBusNets := by decide
  refine ⟨signal.name layout.config.registerReset, listed, ?_⟩
  exact accepted.signal_unique known (Plan.bus_mem (inside _ listed)) rfl

/-- Settling keeps the request on its nets. -/
theorem settled_carries :
    Carries request ((Circuit.of layout plan values).settled isReset request) := by
  have inside : ∀ name ∈ requestNets, name ∈ localBusNets := by decide
  have undriven : ∀ name ∈ requestNets, ¬ (Signal.bus name).IsDriven := by
    unfold Signal.IsDriven
    decide
  refine (carries_driveRequest request (values.set layout.config.registerReset.port
    (Circuit.resetLevel layout.config.registerReset isReset))).congr ?_
  intro name listed
  exact get_undriven accepted values isReset request (Plan.bus_mem (inside name listed))
    (undriven name listed)

/-- Settling keeps the reset at its level. -/
theorem settled_reset :
    ((Circuit.of layout plan values).settled isReset request).get
        layout.config.registerReset.port =
      Circuit.resetLevel layout.config.registerReset isReset := by
  have known : Signal.reset ∈ plan.signals := Plan.reset_mem
  have free : Signal.reset.name layout.config.registerReset ∉ requestNets := by
    intro listed
    rcases eq_bus_of_mem_requestNets accepted known listed with ⟨name, -, same⟩
    cases same
  have undriven : ¬ Signal.reset.IsDriven := fun impossible => impossible
  have drivenNets := get_undriven accepted values isReset request known undriven
  rw [get_driveRequest free] at drivenNets
  exact drivenNets.trans (Nets.get_set_self _ _ _)

/-- Flip-flops and input ports hold what they held. -/
theorem settled_held {signal : Signal} (known : signal ∈ plan.signals) (held : signal.IsHeld) :
    ((Circuit.of layout plan values).settled isReset request).get
        (signal.name layout.config.registerReset) =
      values.get (signal.name layout.config.registerReset) := by
  -- What a clock edge holds is neither driven by an item nor set by the request.
  have undriven : ¬ signal.IsDriven := by
    intro driven
    cases signal with
    | port field =>
      have input : field.template.direction = .input := held
      have output : field.template.direction = .output := driven
      rw [input] at output
      cases output
    | bus name =>
      rcases held with rfl | rfl
      · exact absurd driven (by unfold Signal.IsDriven; decide)
      · exact absurd driven (by unfold Signal.IsDriven; decide)
    | value field => exact driven
    | state field => exact driven
    | constant name => exact held
    | reset => exact held
    | writeSelect register => exact held
    | readSelect register => exact held
    | enable field => exact held
  have free : signal.name layout.config.registerReset ∉ requestNets := by
    intro listed
    rcases eq_bus_of_mem_requestNets accepted known listed with ⟨name, member, rfl⟩
    rcases held with rfl | rfl
    · exact absurd member (by decide)
    · exact absurd member (by decide)
  have notReset : layout.config.registerReset.port ≠ signal.name layout.config.registerReset := by
    intro same
    rw [← accepted.signal_unique Plan.reset_mem known same] at held
    exact held
  rw [get_undriven accepted values isReset request known undriven, get_driveRequest free]
  exact Nets.get_set_of_ne _ _ notReset

theorem settled_selfClear (used : plan.uses (· == .selfClearing) = true)
    (state : SelfClearState) :
    ((Circuit.of layout plan values).settled isReset request).get state.constant =
      state.encoding := by
  have listed : .parameter state.constant state.encoding ∈ drivers layout.geometry plan := by
    have every : state ∈ SelfClearState.all := by cases state <;> decide
    unfold drivers stateConstants
    rw [if_pos used]
    exact List.mem_append_left _ (List.mem_append_left _ (List.mem_append_left _
      (List.mem_append_left _ (List.mem_map_of_mem every))))
  exact get_driven accepted values isReset request listed rfl

theorem settled_writeOnce (used : plan.uses Template.isWriteOnce = true)
    (state : WriteOnceState) :
    ((Circuit.of layout plan values).settled isReset request).get state.constant =
      state.encoding := by
  have listed : .parameter state.constant state.encoding ∈ drivers layout.geometry plan := by
    have every : state ∈ WriteOnceState.all := by cases state <;> decide
    unfold drivers stateConstants
    rw [if_pos used]
    exact List.mem_append_left _ (List.mem_append_left _ (List.mem_append_left _
      (List.mem_append_right _ (List.mem_map_of_mem every))))
  exact get_driven accepted values isReset request listed rfl

/-- A wire of one bit shows the truth that it follows. -/
theorem get_follow {name : String} {expr : Expr} {condition : Bool}
    (listed : Bus.follow name expr ∈ drivers layout.geometry plan)
    (follows : expr.value (Circuit.of layout plan values).widths
      ((Circuit.of layout plan values).settled isReset request) = truth condition) :
    ((Circuit.of layout plan values).settled isReset request).get name = truth condition := by
  have assigned := get_driven accepted values isReset request listed rfl
  rw [assigned, follows]
  exact truth_and_ones condition

/-- A register is selected for writing by a request that writes to its
address. -/
theorem settled_writeSelect {register : RegisterPlan} (planned : register ∈ plan.registers) :
    ((Circuit.of layout plan values).settled isReset request).get register.writeSelect =
      truth (request.writeAt? register.placed.address).isSome := by
  have carries := settled_carries accepted values isReset request
  have listed : Bus.follow register.writeSelect
      (selectExpr layout.geometry.addressWidth "lb_wen" "lb_waddr" register) ∈
      drivers layout.geometry plan := by
    refine List.mem_append_left _ (List.mem_append_right _ ?_)
    exact List.mem_flatMap.mpr ⟨register, planned, List.mem_cons_self⟩
  refine get_follow accepted values isReset request listed ?_
  unfold selectExpr
  simp only [Expr.value, carries.writeEnable]
  rw [truth_and]
  unfold Request.writeAt?
  cases given : request.write? with
  | none => rfl
  | some write =>
    rw [(carries.write write given).1, Option.filter_some]
    by_cases meant : (write.address == register.placed.address) = true
    · rw [if_pos meant, meant]
      rfl
    · rw [if_neg meant, Bool.eq_false_iff.mpr meant]
      rfl

/-- A register is selected for reading by a request that reads its address. -/
theorem settled_readSelect {register : RegisterPlan} (planned : register ∈ plan.registers) :
    ((Circuit.of layout plan values).settled isReset request).get register.readSelect =
      truth (request.readAddress? == some register.placed.address) := by
  have carries := settled_carries accepted values isReset request
  have listed : Bus.follow register.readSelect
      (selectExpr layout.geometry.addressWidth "lb_ren" "lb_raddr" register) ∈
      drivers layout.geometry plan := by
    refine List.mem_append_left _ (List.mem_append_right _ ?_)
    exact List.mem_flatMap.mpr
      ⟨register, planned, List.mem_cons_of_mem _ (List.mem_singleton_self _)⟩
  refine get_follow accepted values isReset request listed ?_
  unfold selectExpr
  simp only [Expr.value, carries.readEnable]
  rw [truth_and]
  cases read : request.readAddress? with
  | none => rfl
  | some address =>
    rw [carries.read _ read]
    rfl

/-- Each strobe stands for the eight bits of its byte. -/
theorem settled_mask (i : Nat) (inside : i < layout.dataWidth) :
    (((Circuit.of layout plan values).settled isReset request).get "lb_wmask").testBit i =
      (Bits.strobeMask
        (((Circuit.of layout plan values).settled isReset request).get "lb_wstrb")).testBit i := by
  have listed : .assign "lb_wmask" 9 (maskExpr layout.geometry) ∈ drivers layout.geometry plan :=
    List.mem_append_left _ (List.mem_append_left _ (List.mem_append_right _
      (List.mem_cons_of_mem _ List.mem_cons_self)))
  have width : (Circuit.of layout plan values).widths.get "lb_wmask" = layout.dataWidth :=
    get_widths (Circuit.of layout plan values) accepted rfl (.bus "lb_wmask")
      (Plan.bus_mem (by decide)) (bus_mem_widths (by decide))
  have narrow := accepted.dataWidth_le
  have bytes : 8 * (layout.dataWidth / 8) = layout.dataWidth := by
    have choices := accepted.dataWidth_mem
    simp only [List.mem_cons, List.not_mem_nil, or_false] at choices
    omega
  have assigned := get_driven accepted values isReset request listed rfl
  have inWord : i < Bits.wordWidth := by omega
  rw [assigned, width, Nat.testBit_and, Bits.testBit_ones, Nat.min_eq_left narrow,
    Bits.testBit_strobeMask]
  unfold maskExpr
  rw [Expr.value, testBit_mask]
  have spread : i < 8 * layout.geometry.strobeWidth := by
    show i < 8 * (layout.dataWidth / 8)
    omega
  simp [inside, inWord, spread]

/-- A field is enabled where a write strobes one of its bits. -/
theorem settled_enable {register : RegisterPlan} (planned : register ∈ plan.registers)
    {field : FieldPlan} (declared : field ∈ register.fields)
    (output : field.template.direction = .output) :
    ((Circuit.of layout plan values).settled isReset request).get field.enableNet =
      truth ((request.writeAt? register.placed.address).isSome &&
        Bits.extract (((Circuit.of layout plan values).settled isReset request).get "lb_wmask")
          field.field.bits.lsb field.field.bits.width != 0) := by
  have own : Bus.follow field.enableNet (enableExpr register field) ∈
      fieldDrivers register field := by
    unfold fieldDrivers
    rw [if_pos output]
    exact List.mem_cons_self
  refine get_follow accepted values isReset request (field_mem_drivers planned declared own) ?_
  unfold enableExpr
  simp only [Expr.value, settled_writeSelect accepted values isReset request planned]
  exact truth_and _ _

/-- An output port settles to what its template shows, cut to the field's
width. -/
theorem settled_port {register : RegisterPlan} (planned : register ∈ plan.registers)
    {field : FieldPlan} (declared : field ∈ register.fields)
    (output : field.template.direction = .output) :
    ((Circuit.of layout plan values).settled isReset request).get field.port =
      (portExpr field).value (Circuit.of layout plan values).widths
          ((Circuit.of layout plan values).settled isReset request)
        &&& Bits.ones field.field.bits.width := by
  have own : .assign field.port 0 (portExpr field) ∈ fieldDrivers register field := by
    unfold fieldDrivers
    rw [if_pos output]
    exact List.mem_cons_of_mem _ (List.mem_singleton_self _)
  have width : (Circuit.of layout plan values).widths.get field.port = field.field.bits.width :=
    get_widths (Circuit.of layout plan values) accepted rfl (.port field)
      (Plan.port_mem planned declared) (field_mem_widths planned declared List.mem_cons_self)
  rw [← width]
  exact get_driven accepted values isReset request (field_mem_drivers planned declared own) rfl

/-- After settling the nets show the bank's state and the request together. -/
theorem shows_settled :
    Shows layout plan values isReset request
      ((Circuit.of layout plan values).settled isReset request) where
  carries := settled_carries accepted values isReset request
  reset := settled_reset accepted values isReset request
  held := fun _ known held => settled_held accepted values isReset request known held
  selfClear := settled_selfClear accepted values isReset request
  writeOnce := settled_writeOnce accepted values isReset request
  writeSelect := fun _ planned => settled_writeSelect accepted values isReset request planned
  readSelect := fun _ planned => settled_readSelect accepted values isReset request planned
  mask := settled_mask accepted values isReset request
  enable := fun _ planned _ declared output =>
    settled_enable accepted values isReset request planned declared output
  port := fun _ planned _ declared output =>
    settled_port accepted values isReset request planned declared output

end Settle

end RegisterBank.Bank
