import RegisterBank.Proofs.Bank.FieldRequests

/-!
# Fields that clear themselves

A field that clears itself holds a write for one cycle.  During that cycle it
takes no other write, whether what it holds is zero or not, so of writes that
come one after the other every second is dropped.  `acceptedHit?` is the write
that a field took in the latest cycle, and `shownAfter` what its output shows
then; `Cell.Clears.serve` ties both to the state and the value of its cell.
Over a bus, a write to an idle field is seen in one cycle, wherever the family
puts its idle cycles (`duringCycles_write`).
-/

namespace RegisterBank.Bank

open RegisterBank.Bus (Protocol)

/-! ## The timing law -/

/-- The write that the latest of some requests since reset brought to a field,
unless the request before it had brought one. -/
def acceptedHit? (address : Nat) (bits : BitRange) (requests : List Request) :
    Option StrobedWrite :=
  requests.foldl
    (fun accepted request =>
      if accepted.isSome then none else request.fieldWrite? address bits) none

/-- What the field shows in the cycle after requests. -/
def shownAfter (address : Nat) (bits : BitRange) (requests : List Request) : Nat :=
  match acceptedHit? address bits requests with
  | some write => write.strobedBits bits
  | none => 0

/-- What the field shows in the cycles of requests that come after earlier
ones. -/
def duringCycles (address : Nat) (bits : BitRange) (earlier : List Request) :
    List Request → List Nat
  | [] => []
  | request :: rest =>
    shownAfter address bits earlier :: duringCycles address bits (earlier ++ [request]) rest

section Law

variable {address : Nat} {bits : BitRange}

theorem acceptedHit?_append_singleton (address : Nat) (bits : BitRange)
    (requests : List Request) (request : Request) :
    acceptedHit? address bits (requests ++ [request]) =
      if (acceptedHit? address bits requests).isSome then none
      else request.fieldWrite? address bits :=
  List.foldl_append

theorem shownAfter_of_none {requests : List Request}
    (idle : acceptedHit? address bits requests = none) : shownAfter address bits requests = 0 := by
  unfold shownAfter
  rw [idle]

/-- What a field takes is a write that reaches it. -/
theorem fieldWrite?_of_acceptedHit? {requests : List Request} {request : Request}
    {write : StrobedWrite}
    (taken : acceptedHit? address bits (requests ++ [request]) = some write) :
    request.fieldWrite? address bits = some write := by
  rw [acceptedHit?_append_singleton] at taken
  split at taken
  · cases taken
  · exact taken

/-- The cycle after one that took a write takes none, and shows zero in turn. -/
theorem acceptedHit?_after_some {requests : List Request} {write : StrobedWrite}
    (taken : acceptedHit? address bits requests = some write) (request : Request) :
    acceptedHit? address bits (requests ++ [request]) = none := by
  rw [acceptedHit?_append_singleton, taken]
  rfl

theorem acceptedHit?_quiet {earlier requests : List Request}
    (idle : acceptedHit? address bits earlier = none)
    (quiet : ∀ request ∈ requests, request.fieldWrite? address bits = none) :
    acceptedHit? address bits (earlier ++ requests) = none := by
  induction requests generalizing earlier with
  | nil =>
    rw [List.append_nil]
    exact idle
  | cons request rest ih =>
    obtain ⟨misses, others⟩ := List.forall_mem_cons.mp quiet
    rw [List.append_cons]
    refine ih ?_ others
    rw [acceptedHit?_append_singleton, idle]
    exact misses

theorem duringCycles_append (earlier first second : List Request) :
    duringCycles address bits earlier (first ++ second) =
      duringCycles address bits earlier first ++
        duringCycles address bits (earlier ++ first) second := by
  induction first generalizing earlier with
  | nil =>
    rw [List.append_nil]
    rfl
  | cons request rest ih =>
    rw [List.append_cons earlier]
    exact congrArg (List.cons _) (ih _)

/-- An idle field that no write reaches shows nothing. -/
theorem duringCycles_quiet {earlier requests : List Request}
    (idle : acceptedHit? address bits earlier = none)
    (quiet : ∀ request ∈ requests, request.fieldWrite? address bits = none) :
    duringCycles address bits earlier requests = List.replicate requests.length 0 := by
  induction requests generalizing earlier with
  | nil => rfl
  | cons request rest ih =>
    obtain ⟨misses, others⟩ := List.forall_mem_cons.mp quiet
    have next := acceptedHit?_quiet idle (List.forall_mem_singleton.mpr misses)
    unfold duringCycles
    rw [shownAfter_of_none idle, ih next others]
    rfl

/-- A write that reaches an idle field is seen in the cycle after it, and in no
other unless another write follows. -/
theorem duringCycles_write {earlier before after : List Request} {request : Request}
    {write : StrobedWrite} (idle : acceptedHit? address bits earlier = none)
    (quiet : ∀ other ∈ before, other.fieldWrite? address bits = none)
    (hit : request.fieldWrite? address bits = some write)
    (quiet' : ∀ other ∈ after, other.fieldWrite? address bits = none) (next : after ≠ []) :
    duringCycles address bits earlier (before ++ request :: after) =
      List.replicate (before.length + 1) 0 ++
        write.strobedBits bits :: List.replicate (after.length - 1) 0 := by
  obtain ⟨first, rest, rfl⟩ := List.exists_cons_of_ne_nil next
  have still := acceptedHit?_quiet idle quiet
  have taken : acceptedHit? address bits (earlier ++ before ++ [request]) = some write := by
    rw [acceptedHit?_append_singleton, still]
    exact hit
  have shown : shownAfter address bits (earlier ++ before ++ [request]) =
      write.strobedBits bits := by
    unfold shownAfter
    rw [taken]
  have cleared := acceptedHit?_after_some taken first
  rw [duringCycles_append, duringCycles_quiet idle quiet]
  unfold duringCycles duringCycles
  rw [shownAfter_of_none still, shown,
    duringCycles_quiet cleared (List.forall_mem_cons.mp quiet').2, List.replicate_succ',
    List.append_assoc]
  rfl

end Law

/-! ## Cells -/

/-- A field holds a write after a clock edge exactly if it was idle and a write
came in. -/
theorem SelfClearState.next_eq (state : SelfClearState) (write : Bool) :
    state.next write = if state == .idle && write then .asserted else .idle := by
  cases state with
  | idle => rfl
  | asserted => rfl

/-- A cell of a field that clears itself, after requests since reset. -/
structure Cell.Clears (field : Field) (address : Nat) (requests : List Request) (cell : Cell) :
    Prop where
  template : cell.template = .selfClearing
  bits : cell.bits = field.bits
  value : cell.value = shownAfter address field.bits requests
  state : cell.selfClear =
    if (acceptedHit? address field.bits requests).isSome then .asserted else .idle

namespace Cell.Clears

variable {field : Field} {address : Nat} {requests : List Request} {cell : Cell}

theorem of_reset (template : cell.template = .selfClearing) (bits : cell.bits = field.bits) :
    cell.reset.Clears field address [] := by
  refine ⟨template, bits, ?_, rfl⟩
  show cell.resetValue = 0
  unfold Cell.resetValue
  rw [template]

theorem narrow (clears : cell.Clears field address requests) (valid : field.Valid) :
    cell.bits.above ≤ Bits.wordWidth := by
  rw [clears.bits]
  exact valid.above_le

/-- The cell takes a write exactly if it is idle and a write reaches it. -/
theorem takes (clears : cell.Clears field address requests) (valid : field.Valid)
    (request : Request) :
    (cell.selfClear == .idle && cell.isStrobed (request.writeAt? address)) =
      (acceptedHit? address field.bits (requests ++ [request])).isSome := by
  have strobed : cell.isStrobed (request.writeAt? address) = _ := isStrobed_writeAt (clears.narrow valid)
  rw [strobed, clears.bits, clears.state, acceptedHit?_append_singleton]
  cases (acceptedHit? address field.bits requests).isSome with
  -- A cell that holds an earlier write drops this one.
  | true => rfl
  | false => exact Bool.true_and _

/-- A clock edge takes a write into an idle field, and clears one that holds a
write. -/
theorem step (clears : cell.Clears field address requests) (valid : field.Valid)
    (request : Request) :
    (cell.step (request.writeAt? address) (request.reads address)).Clears field address
      (requests ++ [request]) := by
  have takes := clears.takes valid request
  rw [step_selfClearing _ _ clears.template]
  refine ⟨clears.template, clears.bits, ?_, ?_⟩
  · show (if _ then cell.writtenBits (request.writeAt? address) else 0) = _
    unfold shownAfter
    rw [takes]
    cases taken : acceptedHit? address field.bits (requests ++ [request]) with
    | none => rfl
    | some write =>
      have hit := fieldWrite?_of_acceptedHit? taken
      rw [← clears.bits] at hit ⊢
      exact writtenBits_writeAt (clears.narrow valid) hit
  · show cell.selfClear.next _ = _
    rw [SelfClearState.next_eq, takes]

theorem serve (clears : cell.Clears field address []) (valid : field.Valid)
    (requests : List Request) :
    (cell.serve address requests).Clears field address requests := by
  induction requests using List.reverseRecOn with
  | nil => exact clears
  | append_singleton before request ih =>
    rw [serve_append_singleton]
    exact ih.step valid request

end Cell.Clears

/-! ## Accepted layouts -/

theorem Template.ofField_selfClearing {field : Field} (valid : field.Valid)
    (clears : field.has .selfClear = true) : Template.ofField field = .selfClearing := by
  have silent : field.has .writePulse = false := by
    rw [← Bool.not_eq_true]
    exact fun pulses => valid.exclusive (.selfClear, .writePulse) (by decide) ⟨clears, pulses⟩
  unfold ofField
  rw [silent, clears]
  rfl

section Accepted

variable {map : RegisterMap} {layout : Layout} {protocol : Protocol} {plan : Plan}
  (accepted : Accepted map layout protocol plan) {placed : PlacedRegister}
  (listed : placed ∈ layout.registers) {field : Field} (declared : field ∈ placed.register.fields)
  (clears : field.has .selfClear = true)

include accepted listed declared clears

/-- What the output of a field that clears itself shows after any run. -/
theorem output?_selfClearing (actions : List Action) (request : Request) :
    (((Machine.make plan layout.dataWidth layout.config.readFiller).after actions).cycle
        request).1.output? placed.name field.name =
      some (shownAfter placed.address field.bits (requestsOf actions)) := by
  have valid := accepted.field_valid listed declared
  have template : Template.ofField field = .selfClearing :=
    Template.ofField_selfClearing valid clears
  have output : (Template.ofField field).direction = .output := by
    rw [template]
    rfl
  have fresh : (Cell.ofPlan (planField layout.config placed.register field)).reset.Clears field
      placed.address [] := .of_reset template rfl
  have served := fresh.serve valid (requestsOf actions)
  have holds := holds_serve accepted listed declared output actions
  refine (holds.observe_output? ?_ request).trans (congrArg some ?_)
  · rw [served.template]
    rfl
  · refine Eq.trans ?_ served.value
    unfold Cell.output
    rw [served.template]

/-- What the output shows in cycles after any run. -/
theorem outputs_selfClearing (actions : List Action) (requests : List Request) :
    (((Machine.make plan layout.dataWidth layout.config.readFiller).after actions).traces
        requests).map (fun trace => trace.output? placed.name field.name) =
      (duringCycles placed.address field.bits (requestsOf actions) requests).map some := by
  induction requests generalizing actions with
  | nil => rfl
  | cons request rest ih =>
    have later := ih (actions ++ [.cycle request])
    rw [Machine.after_append, requestsOf_append_singleton] at later
    exact congrArg₂ List.cons (output?_selfClearing accepted listed declared clears actions request)
      later

/-- Of two cycles in a row, one shows zero. -/
theorem output?_selfClearing_apart (actions : List Action) (first : Request)
    {between : List Action}
    (silent : ∀ action ∈ between, ∀ request, action ≠ .cycle request) (second : Request) :
    (((Machine.make plan layout.dataWidth layout.config.readFiller).after actions).cycle
        first).1.output? placed.name field.name = some 0 ∨
      (((Machine.make plan layout.dataWidth layout.config.readFiller).after
        (actions ++ .cycle first :: between)).cycle second).1.output? placed.name field.name =
          some 0 := by
  rw [output?_selfClearing accepted listed declared clears,
    output?_selfClearing accepted listed declared clears]
  cases taken : acceptedHit? placed.address field.bits (requestsOf actions) with
  | none => exact .inl (congrArg some (shownAfter_of_none taken))
  | some write =>
    refine .inr (congrArg some (shownAfter_of_none ?_))
    rcases requestsOf_between actions first silent with next | next
    · rw [next]
      exact acceptedHit?_after_some taken first
    · rw [next]
      rfl

/-- A transfer that writes to an idle field is seen in one cycle. -/
theorem transfer_selfClearing {actions : List Action} (bus : Protocol) {order : Transfer}
    {write : StrobedWrite} {later : List Request}
    (idle : acceptedHit? placed.address field.bits (requestsOf actions) = none)
    (hit : (order.request layout.dataWidth).fieldWrite? placed.address field.bits = some write)
    (next : later ≠ [])
    (quiet : ∀ request ∈ later, request.fieldWrite? placed.address field.bits = none) :
    ∃ before after,
      ((((Machine.make plan layout.dataWidth layout.config.readFiller).after actions).transfer
              bus order).1.cycles ++
            (((Machine.make plan layout.dataWidth layout.config.readFiller).after
              actions).transfer bus order).2.traces later).map
          (fun trace => trace.output? placed.name field.name) =
        List.replicate before (some 0) ++
          some (write.strobedBits field.bits) :: List.replicate after (some 0) := by
  obtain ⟨before, after, requests⟩ := order.exists_requests bus layout.dataWidth
  have width : ((Machine.make plan layout.dataWidth layout.config.readFiller).after
      actions).dataWidth = layout.dataWidth := Machine.after_dataWidth _ _
  have idles : ∀ count, ∀ request ∈ List.replicate count Request.idle,
      request.fieldWrite? placed.address field.bits = none := by
    intro count request listed
    rw [List.eq_of_mem_replicate listed]
    rfl
  have shown := duringCycles_write idle (idles before) hit
    (List.forall_mem_append.mpr ⟨idles after, quiet⟩) (List.append_ne_nil_of_right_ne_nil _ next)
  have outputs := outputs_selfClearing accepted listed declared clears actions
    (List.replicate before .idle ++
      order.request layout.dataWidth :: (List.replicate after .idle ++ later))
  rw [shown, List.map_append, List.map_cons, List.map_replicate, List.map_replicate] at outputs
  rw [Machine.transfer_traces, width, requests, List.append_assoc, List.cons_append]
  exact ⟨_, _, outputs⟩

/-- **A field that clears itself follows its timing law.**  Its output shows a
write in the cycle after it if the field was idle, and zero in all other
cycles, so it is never on for two cycles in a row.  Over every bus, a write to
an idle field is seen in one cycle, as long as no further write reaches it. -/
theorem selfClearing_timing :
    ∃ machine, layout.buildMachine = .ok (some (machine, protocol)) ∧
      (∀ actions request,
        ((machine.after actions).cycle request).1.output? placed.name field.name =
          some (shownAfter placed.address field.bits (requestsOf actions))) ∧
      (∀ actions first between second, (∀ action ∈ between, ∀ request, action ≠ .cycle request) →
        ((machine.after actions).cycle first).1.output? placed.name field.name = some 0 ∨
          ((machine.after (actions ++ .cycle first :: between)).cycle second).1.output?
            placed.name field.name = some 0) ∧
      ∀ (actions : List Action) (bus : Protocol) (order : Transfer) (write : StrobedWrite)
          (later : List Request),
        acceptedHit? placed.address field.bits (requestsOf actions) = none →
        (order.request layout.dataWidth).fieldWrite? placed.address field.bits = some write →
        later ≠ [] → (∀ request ∈ later, request.fieldWrite? placed.address field.bits = none) →
        ∃ before after,
          (((machine.after actions).transfer bus order).1.cycles ++
                ((machine.after actions).transfer bus order).2.traces later).map
              (fun trace => trace.output? placed.name field.name) =
            List.replicate before (some 0) ++
              some (write.strobedBits field.bits) :: List.replicate after (some 0) := by
  refine ⟨_, accepted.buildMachine, ?_, ?_, ?_⟩
  · exact output?_selfClearing accepted listed declared clears
  · intro actions first between second silent
    exact output?_selfClearing_apart accepted listed declared clears actions first silent second
  · intro actions bus order write later idle hit next quiet
    exact transfer_selfClearing accepted listed declared clears bus idle hit next quiet

end Accepted

/-- Three commands in a row, each in another byte than the one before. -/
def commandActions : List Action :=
  [.cycle (.write 0 0xa50 1), .cycle (.write 0 0xff0 2), .cycle (.writeRead 0 0x3f0 2 4)]

theorem selfClearing_timing_commands :
    ∃ machine, commandLayout.buildMachine = .ok (some (machine, .axil)) ∧
      ((machine.after (commandActions.take 1)).cycle .idle).1.output? "cmd" "go" = some 0x5 ∧
      ((machine.after (commandActions.take 2)).cycle .idle).1.output? "cmd" "go" = some 0 ∧
      ((machine.after commandActions).cycle .idle).1.output? "cmd" "go" = some 0x30 ∧
      ((machine.after (commandActions.take 2)).cycle (.write 0 0x3f0 2)).1.output? "cmd" "go" =
          some 0 ∧
      ∃ before after,
        (((machine.after (commandActions.take 2)).transfer .apb (.write 0 0xab0)).1.cycles ++
              ((machine.after (commandActions.take 2)).transfer .apb (.write 0 0xab0)).2.traces
                [.read 0, .write 0 0xff0 4]).map
            (fun trace => trace.output? "cmd" "go") =
          List.replicate before (some 0) ++ some 0xab :: List.replicate after (some 0) := by
  have listed : commandLayout.registers[0] ∈ commandLayout.registers :=
    List.getElem_mem (by decide)
  have declared : commandLayout.registers[0].register.fields[0] ∈
      commandLayout.registers[0].register.fields := List.getElem_mem (by decide)
  rcases selfClearing_timing accepted_commands listed declared rfl with
    ⟨machine, built, shows, apart, once⟩
  refine ⟨machine, built, shows _ _, shows _ _, shows _ _, ?_, ?_⟩
  · exact (apart (commandActions.take 1) (.write 0 0xff0 2) [] (.write 0 0x3f0 2)
      (List.forall_mem_nil _)).resolve_left (by rw [shows]; decide)
  · exact once (commandActions.take 2) .apb (.write 0 0xab0) ⟨0, 0xab0, 15⟩
      [.read 0, .write 0 0xff0 4] rfl rfl (List.cons_ne_nil _ _) (by decide)

end RegisterBank.Bank
