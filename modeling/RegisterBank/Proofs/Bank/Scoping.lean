import RegisterBank.Proofs.Bank.Fitting
import RegisterBank.Proofs.Bank.SelfClearing
import RegisterBank.Proofs.Bank.StoredFields

/-!
# The text of a bridge is well scoped

An undeclared name or a constant that is too wide passes a hardware compiler
without a word, so the text of a bridge has to be right by itself.  What its
tokens declare, use and select follows from the items (`fits_bridge`).  The
constants for the states of fields are among them if some field has such states,
and otherwise stand nowhere in the text (`stateConstant_iff`).
-/

namespace RegisterBank

/-- A bridge that is rendered is that of an accepted plan. -/
theorem Layout.exists_bridge {layout : Layout} {mapName : String} {source : BridgeSource}
    (rendered : layout.renderBridge mapName = .ok (some source)) :
    ∃ protocol plan, layout.prepare = .ok (some (protocol, plan)) ∧
      Text.isIdentifier mapName = true ∧
      source.moduleName = protocol.moduleName mapName ∧
      source.text = (layout.bridge protocol plan mapName).text := by
  unfold renderBridge at rendered
  split at rendered
  · cases rendered
  · cases rendered
  · rename_i protocol plan prepared
    cases named : Text.isIdentifier mapName with
    | false =>
      rw [named] at rendered
      cases rendered
    | true =>
      simp only [named, Bool.not_true, Bool.false_eq_true, if_false, Except.ok.injEq,
        Option.some.injEq] at rendered
      subst rendered
      exact ⟨protocol, plan, prepared, rfl, rfl, by dsimp only [Layout.bridge]⟩

end RegisterBank

namespace RegisterBank.Bank

open RegisterBank.Verilog
open RegisterBank.Bus (Geometry)

/-! ## Fields with states -/

theorem Template.ofField_eq_selfClearing_iff {field : Field} (valid : field.Valid) :
    ofField field = .selfClearing ↔ field.has .selfClear = true := by
  constructor
  · intro same
    unfold ofField at same
    cases clears : field.has .selfClear with
    | true => rfl
    | false =>
      rw [clears] at same
      revert same
      cases field.has .writePulse <;> cases field.isHardwareDriven <;>
        cases field.access.isWritable <;> simp
  · exact Template.ofField_selfClearing valid

section Uses

variable {map : RegisterMap} {layout : Layout} {protocol : Bus.Protocol} {plan : Plan}

/-- A plan uses a template if some field of the map has it. -/
theorem Accepted.uses_iff (accepted : Accepted map layout protocol plan) {test : Template → Bool}
    {holds : Field → Prop}
    (same : ∀ field : Field, field.Valid → (test (Template.ofField field) = true ↔ holds field)) :
    plan.uses test = true ↔
      ∃ register ∈ map.registers, ∃ field ∈ register.fields, holds field := by
  obtain ⟨_, puts, -⟩ := accepted.puts
  have valid {placed : PlacedRegister} (listed : placed ∈ layout.registers) {field : Field}
      (declared : field ∈ placed.register.fields) : field.Valid :=
    (accepted.built.valid.registers _ (accepted.register_mem listed)).fields field declared
  unfold Plan.uses Plan.fields
  rw [List.any_flatMap, List.any_eq_true, accepted.plan_eq.1, ← puts.registers]
  constructor
  · rintro ⟨_, planned, used⟩
    obtain ⟨placed, listed, rfl⟩ := List.mem_map.mp planned
    obtain ⟨_, declared, passes⟩ := List.any_eq_true.mp used
    obtain ⟨field, inside, rfl⟩ := List.mem_map.mp declared
    exact ⟨placed.register, List.mem_map_of_mem listed, field, inside,
      (same field (valid listed inside)).mp passes⟩
  · rintro ⟨_, member, field, inside, has⟩
    obtain ⟨placed, listed, rfl⟩ := List.mem_map.mp member
    exact ⟨_, List.mem_map_of_mem listed, List.any_eq_true.mpr
      ⟨_, List.mem_map_of_mem inside, (same field (valid listed inside)).mpr has⟩⟩

end Uses

/-! ## Constants in the text -/

theorem selfClear_mem_constantNames_iff {plan : Plan} (state : SelfClearState) :
    state.constant ∈ constantNames plan ↔ plan.uses (· == .selfClearing) = true := by
  unfold constantNames
  cases plan.uses (· == .selfClearing) <;> cases plan.uses Template.isWriteOnce <;>
    cases state <;> decide

theorem writeOnce_mem_constantNames_iff {plan : Plan} (state : WriteOnceState) :
    state.constant ∈ constantNames plan ↔ plan.uses Template.isWriteOnce = true := by
  unfold constantNames
  cases plan.uses (· == .selfClearing) <;> cases plan.uses Template.isWriteOnce <;>
    cases state <;> decide

/-- The line that declares a constant. -/
theorem localparam_infix {plan : Plan} {name : String} (listed : name ∈ constantNames plan) :
    ∃ item ∈ stateConstants plan, ["localparam", name] <:+: item.tokens := by
  have lines : ∀ name ∈ stateConstantNames, ∀ value < 2,
      ["localparam", name] <:+: (Item.parameter name value).tokens := by decide
  rw [← names_stateConstants] at listed
  obtain ⟨item, member, named⟩ := List.mem_flatMap.mp listed
  obtain ⟨constant, known, value, small, rfl⟩ := exists_parameter_of_mem member
  rw [List.mem_singleton.mp named]
  exact ⟨_, member, lines constant known value small⟩

/-! ## Vectors in the text -/

/-- The line that declares a wire without a value. -/
theorem tokens_wire {name : String} (identifier : Text.isIdentifier name = true)
    (width column : Nat) (isVector : Bool) :
    (Item.declare ⟨.wire, width, isVector, column, name, none⟩).tokens =
      "wire" :: rangeTokens width isVector ++ [name, ";"] := by
  have line : (Item.declare ⟨.wire, width, isVector, column, name, none⟩).lines =
      ["wire " ++ padRight column (rangeText width isVector) ++ name ++ ";"] := by
    show ["wire " ++ padRight column (rangeText width isVector) ++ name ++ "" ++ ";"] = _
    rw [String.append_empty]
  have word : lineTokens "wire ".toList = ["wire"] := by decide
  have start : OnLine "wire " := onLine_of_all (by decide)
  have ending : OnLine ";" := onLine_of_all (by decide)
  have onLine : OnLine ("wire " ++ padRight column (rangeText width isVector) ++ name ++ ";") :=
    ((start.append ((onLine_rangeText width isVector).padRight column)).append
      (onLine_of_isIdentifier identifier)).append ending
  have plain :
      '/' ∉ ("wire " ++ padRight column (rangeText width isVector) ++ name ++ ";").toList :=
    fun slash => (onLine _ slash).2 rfl
  unfold Item.tokens
  rw [line, List.flatMap_singleton, codeTokens, withoutComment_of_not_mem plain,
    String.toList_append, lineTokens_append (Or.inr (by decide)),
    lineTokens_declaration (lineTokens_range word (by decide) column width isVector)
      (endsApart_range (by decide) column width isVector) identifier, List.append_assoc]
  rfl

/-- A vector is declared in the text, and selects from it stay within. -/
theorem vector_selects {bus : Geometry} {rest : List String}
    (within : SelectsWithin (localBusWidths bus) rest)
    (items : ∀ item ∈ localBus bus, item.tokens <:+: rest) {name : String}
    (identifier : Text.isIdentifier name = true) (plain : name ∉ declaringWords) (width : Nat)
    (size : (localBusWidths bus).get name = width) (isVector : Bool)
    (ranged : width > 1 ∨ isVector = true)
    (listed : .declare ⟨.wire, width, isVector, portColumn, name, none⟩ ∈ localBus bus) :
    ∃ top, ["wire", "[", toString top, ":", "0", "]", name] <:+: rest ∧
      ∀ before after, rest = before ++ name :: "[" :: after → SelectsUpTo top after := by
  refine ⟨width - 1, ?_, fun before after split => ?_⟩
  · have line := items _ listed
    rw [tokens_wire identifier, rangeTokens, if_pos ranged] at line
    exact List.IsInfix.trans ⟨[], [";"], rfl⟩ line
  · have either := within before name after split
    rw [size] at either
    exact either.resolve_left plain

/-! ## The text -/

section Text

variable {map : RegisterMap} {layout : Layout} {protocol : Bus.Protocol} {plan : Plan}
  {rest : List String}

/-- A constant stands in the text if it is needed, and then it is declared. -/
theorem stateConstant_iff (accepted : Accepted map layout protocol plan) {mapName : String}
    (reads : Reads (localBusWidths layout.geometry) [] rest
      (layout.bridge protocol plan mapName).names)
    (items : ∀ item ∈ (layout.bridge protocol plan mapName).toModule.items,
      item.tokens <:+: rest) {constant : String} (known : constant ∈ stateConstantNames) :
    (constant ∈ rest ↔ constant ∈ constantNames plan) ∧
      (["localparam", constant] <:+: rest ↔ constant ∈ constantNames plan) := by
  have names : ∀ name ∈ stateConstantNames, isName name = true ∧ name ∉ templateWords := by
    decide
  obtain ⟨named, template⟩ := names constant known
  have needed (stands : constant ∈ rest) : constant ∈ constantNames plan := by
    have declared := reads.walk.mem_declared (List.mem_filter.mpr ⟨stands, named⟩) template
    have perm := names_perm layout.config (layout.bridge protocol plan mapName) rfl
    refine (List.mem_append.mp (perm.mem_iff.mp declared)).resolve_right fun claimed => ?_
    exact (accepted.grantable constant claimed).notConstant known
  have declared (needs : constant ∈ constantNames plan) : ["localparam", constant] <:+: rest := by
    obtain ⟨item, listed, inside⟩ := localparam_infix needs
    refine inside.trans (items item ?_)
    simp [Bridge.toModule, Layout.bridge, listed]
  have behind : constant ∈ ["localparam", constant] := by simp
  exact ⟨⟨needed, fun needs => (declared needs).subset behind⟩,
    fun stands => needed (stands.subset behind), declared⟩

end Text

/-- **The text of a bridge is well scoped.**  Behind the name of the module and
outside comments, every name but the words of the language is declared once and
before it is used.  The data, the strobes and the mask of a write are declared
as vectors, and every constant select of them stays within.  Every sized constant
holds its value.  The constants for the states of fields are declared if some
field of the map clears itself or is written once, and stand nowhere
otherwise. -/
theorem renderBridge_wellScoped {map : RegisterMap} {layout : Layout} {mapName : String}
    {source : BridgeSource} (built : map.Built) (resolved : Layout.resolve map = .ok layout)
    (rendered : layout.renderBridge mapName = .ok (some source)) :
    ∃ rest, tokens source.text = "module" :: source.moduleName :: rest ∧
      WellScoped (rest.filter isName) ∧
      (∀ vector ∈ ["lb_wdata", "lb_wmask", "lb_wstrb"],
        ∃ top, ["wire", "[", toString top, ":", "0", "]", vector] <:+: rest ∧
          ∀ before after, rest = before ++ vector :: "[" :: after → SelectsUpTo top after) ∧
      (∀ token ∈ rest, '\'' ∈ token.toList → HoldsValue token) ∧
      (∀ state : SelfClearState,
        (["localparam", state.constant] <:+: rest ↔
          ∃ register ∈ map.registers, ∃ field ∈ register.fields, field.has .selfClear = true) ∧
        (state.constant ∈ rest ↔
          ∃ register ∈ map.registers, ∃ field ∈ register.fields, field.has .selfClear = true)) ∧
      ∀ state : WriteOnceState,
        (["localparam", state.constant] <:+: rest ↔
          ∃ register ∈ map.registers, ∃ field ∈ register.fields, field.has .writeOnce = true) ∧
        (state.constant ∈ rest ↔
          ∃ register ∈ map.registers, ∃ field ∈ register.fields, field.has .writeOnce = true) := by
  obtain ⟨protocol, plan, prepared, named, moduleName, text⟩ := Layout.exists_bridge rendered
  have accepted : Accepted map layout protocol plan := ⟨built, resolved, prepared⟩
  obtain ⟨rest, read, reads, items⟩ := Module.tokens_text (fits_bridge accepted named)
  have nets : ∀ item ∈ localBus layout.geometry, item.tokens <:+: rest := by
    intro item listed
    refine items item ?_
    simp [Bridge.toModule, Layout.bridge, listed]
  have wide : layout.dataWidth > 1 := by
    have widths : ∀ width ∈ [8, 16, 32, 64], width > 1 := by decide
    exact widths _ accepted.dataWidth_mem
  have within := reads.sound.selects
  have selfClears : plan.uses (· == .selfClearing) = true ↔
      ∃ register ∈ map.registers, ∃ field ∈ register.fields, field.has .selfClear = true :=
    accepted.uses_iff fun field valid =>
      beq_iff_eq.trans (Template.ofField_eq_selfClearing_iff valid)
  have writesOnce : plan.uses Template.isWriteOnce = true ↔
      ∃ register ∈ map.registers, ∃ field ∈ register.fields, field.has .writeOnce = true :=
    accepted.uses_iff fun field valid => Template.isWriteOnce_ofField_iff valid
  refine ⟨rest, ?_, reads.walk.wellScoped, ?_, reads.sound.constants, ?_, ?_⟩
  · rw [text, moduleName]
    exact read
  · refine List.forall_mem_cons.mpr ⟨?_, List.forall_mem_cons.mpr ⟨?_,
      List.forall_mem_singleton.mpr ?_⟩⟩
    · exact vector_selects within nets (by decide) (by decide) layout.geometry.dataWidth rfl false
        (Or.inl wide) (by simp [localBus])
    · exact vector_selects within nets (by decide) (by decide) layout.geometry.dataWidth rfl false
        (Or.inl wide) (by simp [localBus])
    · exact vector_selects within nets (by decide) (by decide) layout.geometry.strobeWidth rfl true
        (Or.inr rfl) (by simp [localBus])
  · intro state
    have known : state.constant ∈ stateConstantNames := by cases state <;> decide
    obtain ⟨stands, declared⟩ := stateConstant_iff accepted reads items known
    have needs := (selfClear_mem_constantNames_iff state).trans selfClears
    exact ⟨declared.trans needs, stands.trans needs⟩
  · intro state
    have known : state.constant ∈ stateConstantNames := by cases state <;> decide
    obtain ⟨stands, declared⟩ := stateConstant_iff accepted reads items known
    have needs := (writeOnce_mem_constantNames_iff state).trans writesOnce
    exact ⟨declared.trans needs, stands.trans needs⟩

theorem renderBridge_wellScoped_commands :
    commandMap.Built ∧ Layout.resolve commandMap = .ok commandLayout ∧
      ∃ source, commandLayout.renderBridge "events" = .ok (some source) ∧
        ∃ rest, tokens source.text = "module" :: "axil2lb_events" :: rest ∧
          WellScoped (rest.filter isName) ∧
          (∃ top, ["wire", "[", toString top, ":", "0", "]", "lb_wmask"] <:+: rest ∧
            ∀ before after, rest = before ++ "lb_wmask" :: "[" :: after →
              SelectsUpTo top after) ∧
          ["localparam", "SC_ASSERTED"] <:+: rest ∧ "WO_LOCKED" ∈ rest := by
  obtain ⟨source, rendered, moduleName⟩ : ∃ source,
      commandLayout.renderBridge "events" = .ok (some source) ∧
        source.moduleName = "axil2lb_events" := by
    unfold Layout.renderBridge
    rw [accepted_commands.prepared]
    exact ⟨_, rfl, rfl⟩
  obtain ⟨rest, read, scopes, vectors, -, selfClears, writesOnce⟩ :=
    renderBridge_wellScoped accepted_commands.built accepted_commands.resolved rendered
  rw [moduleName] at read
  have clears : ∃ register ∈ commandMap.registers, ∃ field ∈ register.fields,
      field.has .selfClear = true := by decide
  have once : ∃ register ∈ commandMap.registers, ∃ field ∈ register.fields,
      field.has .writeOnce = true := by decide
  exact ⟨accepted_commands.built, accepted_commands.resolved, source, rendered, rest, read, scopes,
    vectors "lb_wmask" (by decide), (selfClears .asserted).1.mpr clears,
    (writesOnce .locked).2.mpr once⟩

end RegisterBank.Bank
