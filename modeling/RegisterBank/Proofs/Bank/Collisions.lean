import RegisterBank.Proofs.Bank.Names
import RegisterBank.Proofs.Text.Identifiers

/-!
# Which plans are refused

A plan is made unless two of its names collide.  The reserved words never get
in the way: apart from a few fixed names, every name has an underscore that no
case convention removes, and no reserved word has one.  The constants for the
states of fields are declared beside the claimed names without being claimed
themselves, and do not meet them either.
-/

namespace RegisterBank.Bank

/-! ## The names of a layout -/

/-- The nets that a field of a template has inside the bank. -/
def templateNets (base : String) : Template → List String
  | .hardwareDriven => []
  | .sticky => [base ++ "_ff"]
  | .stored _ false => [base ++ "_we", base ++ "_ff"]
  | .stored _ true => [base ++ "_we", base ++ "_ff", base ++ "_state"]
  | .selfClearing => [base ++ "_we", base ++ "_ff", base ++ "_state"]
  | .pulse => [base ++ "_we"]

/-- The names of a field: its port in the configured convention, and its nets. -/
def fieldNames (config : Configuration) (register : Register) (field : Field) : List String :=
  let template := Template.ofField field
  let base := register.name ++ "_" ++ field.name
  config.namingCase.apply (config.namingPrefix ++ base ++ template.portSuffix)
    :: templateNets base template

/-- The names of a register: its two selects, and the names of its fields. -/
def registerNames (config : Configuration) (register : Register) : List String :=
  [register.name ++ "_wsel", register.name ++ "_rsel"]
    ++ register.fields.flatMap (fieldNames config register)

/-- The names that every bridge of a bus family has. -/
def fixedNames (reset : ResetStyle) (protocol : Bus.Protocol) : List String :=
  ["clk", reset.port] ++ protocol.ports.map Bus.Port.name ++ localBusNets ++ protocol.internals

/-- All names of a layout behind a bus. -/
def signalNames (layout : Layout) (protocol : Bus.Protocol) : List String :=
  fixedNames layout.config.registerReset protocol
    ++ layout.registers.flatMap fun placed => registerNames layout.config placed.register

/-! ## Claims are the names -/

/-- The internal nets of a field follow from its name and its template. -/
theorem internalNets_eq (config : Configuration) (register : Register) (field : Field) :
    (planField config register field).internalNets =
      templateNets (register.name ++ "_" ++ field.name) (Template.ofField field) := by
  unfold planField FieldPlan.internalNets
  cases Template.ofField field with
  | stored readClear writeOnce => cases writeOnce <;> rfl
  | hardwareDriven => rfl
  | sticky => rfl
  | selfClearing => rfl
  | pulse => rfl

theorem map_name_registerClaims (config : Configuration) (placed : PlacedRegister) :
    (Plan.registerClaims (planRegister config placed)).map Plan.Claim.name =
      registerNames config placed.register := by
  have field (field : Field) :
      ((planField config placed.register field).port ::
          (planField config placed.register field).internalNets) =
        fieldNames config placed.register field := by
    rw [internalNets_eq]
    rfl
  unfold Plan.registerClaims registerNames planRegister
  simp only [List.map_append, List.map_flatMap, List.map_map, List.flatMap_map]
  congr 1
  refine List.flatMap_congr fun other _ => ?_
  rw [← field other]
  exact List.map_id _

/-- The plan claims exactly the names that the layout's module is to use. -/
theorem map_name_claims (layout : Layout) (protocol : Bus.Protocol) :
    (Plan.claims layout.config protocol (Plan.draft layout)).map Plan.Claim.name =
      signalNames layout protocol := by
  have fixed (owner : SignalOwner) (names : List String) :
      (names.map fun name => (⟨name, owner⟩ : Plan.Claim)).map Plan.Claim.name = names := by
    rw [List.map_map]
    exact List.map_id _
  unfold Plan.claims signalNames fixedNames Plan.draft
  simp only [List.map_append, fixed, List.map_map, List.map_flatMap, List.flatMap_map,
    map_name_registerClaims, List.append_assoc]
  rfl

/-! ## No name is reserved -/

/-- A name that a signal may have. -/
structure Grantable (name : String) : Prop where
  identifier : Text.isIdentifier name = true
  notReserved : Verilog.isKeyword name = false
  notConstant : name ∉ stateConstantNames

/-- No reserved word has an underscore. -/
theorem isKeyword_of_underscore {name : String} (underscored : '_' ∈ name.toList) :
    Verilog.isKeyword name = false := by
  have plain : ∀ word ∈ Verilog.keywords, '_' ∉ word.toList := by decide
  unfold Verilog.isKeyword
  rw [List.contains_eq_mem, decide_eq_false_iff_not]
  exact fun listed => plain name listed underscored

theorem grantable_fixed (reset : ResetStyle) (protocol : Bus.Protocol) :
    ∀ name ∈ fixedNames reset protocol, Grantable name := by
  have checked : (fixedNames reset protocol).all (fun name => Text.isIdentifier name &&
      !Verilog.isKeyword name && !stateConstantNames.contains name) = true := by
    cases reset <;> cases protocol <;> decide
  intro name listed
  have fine := List.all_eq_true.mp checked name listed
  simp only [Bool.and_eq_true, Bool.not_eq_true', List.contains_eq_mem,
    decide_eq_false_iff_not] at fine
  exact ⟨fine.1.1, fine.1.2, fine.2⟩

/-- An identifier with one of the endings of nets. -/
theorem grantable_append {name ending : String} (identifier : Text.isIdentifier name = true)
    (known : ending ∈ ["_wsel", "_rsel", "_we", "_ff", "_state"]) :
    Grantable (name ++ ending) := by
  have characters : ∀ ending ∈ ["_wsel", "_rsel", "_we", "_ff", "_state"],
      ending.toList.all Text.isIdentifierRest = true ∧ '_' ∈ ending.toList ∧
        ∀ constant ∈ stateConstantNames, ¬ ending.toList <:+ constant.toList := by decide
  obtain ⟨inside, underscored, foreign⟩ := characters ending known
  refine ⟨Text.isIdentifier_append identifier (List.all_eq_true.mp inside),
    isKeyword_of_underscore ?_, not_mem_constants_append foreign⟩
  rw [String.toList_append]
  exact List.mem_append_right _ underscored

section Built

variable {config : Configuration} {register : Register} {field : Field}

/-- A register's and a field's name joined make an identifier. -/
theorem isIdentifier_base (valid : register.Valid) (fieldValid : field.Valid) :
    Text.isIdentifier (register.name ++ "_" ++ field.name) = true := by
  refine Text.isIdentifier_append
    (Text.isIdentifier_append valid.name (List.all_eq_true.mp (by decide))) ?_
  intro c listed
  exact Text.isIdentifierRest_of_mem fieldValid.name listed

/-- A port's name is granted, whatever the configured prefix and case are. -/
theorem grantable_port (configured : config.Valid) (valid : register.Valid)
    (fieldValid : field.Valid) : Grantable (config.namingCase.apply (config.namingPrefix ++
      (register.name ++ "_" ++ field.name) ++ (Template.ofField field).portSuffix)) := by
  have base := isIdentifier_base valid fieldValid
  have suffixed (template : Template) :
      ∀ c ∈ template.portSuffix.toList, Text.isIdentifierRest c = true := by
    unfold Template.portSuffix
    cases template.direction <;> exact List.all_eq_true.mp (by decide)
  have prefixed : Text.isIdentifier
      (config.namingPrefix ++ (register.name ++ "_" ++ field.name)) = true := by
    rcases configured.namingPrefix with identifier | empty
    · exact Text.isIdentifier_append identifier fun c listed =>
        Text.isIdentifierRest_of_mem base listed
    · rw [empty, String.empty_append]
      exact base
  have underscored : '_' ∈ (config.namingPrefix ++ (register.name ++ "_" ++ field.name) ++
      (Template.ofField field).portSuffix).toList := by
    simp [String.toList_append]
  exact
    { identifier := NamingCase.isIdentifier_apply _ (Text.isIdentifier_append prefixed (suffixed _))
      notReserved := isKeyword_of_underscore (NamingCase.underscore_mem_apply _ underscored)
      notConstant := port_not_mem_constants config register field }

theorem grantable_registerNames (configured : config.Valid) (valid : register.Valid) :
    ∀ name ∈ registerNames config register, Grantable name := by
  unfold registerNames
  intro name listed
  rcases List.mem_append.mp listed with select | inner
  · rcases List.mem_cons.mp select with rfl | select
    · exact grantable_append valid.name (by decide)
    · rw [List.mem_singleton.mp select]
      exact grantable_append valid.name (by decide)
  · obtain ⟨field, declared, named⟩ := List.mem_flatMap.mp inner
    have fieldValid := valid.fields field declared
    have base := isIdentifier_base valid fieldValid
    rcases List.mem_cons.mp named with rfl | net
    · exact grantable_port configured valid fieldValid
    · have ended : ∃ ending ∈ ["_wsel", "_rsel", "_we", "_ff", "_state"],
          name = register.name ++ "_" ++ field.name ++ ending := by
        unfold templateNets at net
        split at net <;> simp only [List.mem_cons, List.not_mem_nil, or_false] at net
        · exact ⟨"_ff", by decide, net⟩
        · rcases net with rfl | rfl
          · exact ⟨"_we", by decide, rfl⟩
          · exact ⟨"_ff", by decide, rfl⟩
        · rcases net with rfl | rfl | rfl
          · exact ⟨"_we", by decide, rfl⟩
          · exact ⟨"_ff", by decide, rfl⟩
          · exact ⟨"_state", by decide, rfl⟩
        · rcases net with rfl | rfl | rfl
          · exact ⟨"_we", by decide, rfl⟩
          · exact ⟨"_ff", by decide, rfl⟩
          · exact ⟨"_state", by decide, rfl⟩
        · exact ⟨"_we", by decide, net⟩
      obtain ⟨ending, known, rfl⟩ := ended
      exact grantable_append base known

end Built

/-- No name of an accepted map is refused for what it is; only for being used
twice. -/
theorem grantable_signalNames {map : RegisterMap} {layout : Layout} (built : map.Built)
    (resolved : Layout.resolve map = .ok layout) (protocol : Bus.Protocol) :
    ∀ name ∈ signalNames layout protocol, Grantable name := by
  rcases Layout.exists_resolves built.valid with ⟨addresses, resolves⟩
  have puts := resolves.puts layout resolved
  unfold signalNames
  intro name listed
  rcases List.mem_append.mp listed with fixed | inner
  · exact grantable_fixed _ protocol name fixed
  · obtain ⟨placed, placedIn, named⟩ := List.mem_flatMap.mp inner
    have member : placed.register ∈ map.registers := by
      rw [← puts.registers]
      exact List.mem_map_of_mem placedIn
    have configured : layout.config.Valid := by
      unfold Layout.config
      rw [puts.map_eq]
      exact built.valid.config
    exact grantable_registerNames configured (built.valid.registers _ member) name named

/-! ## Collisions -/

/-- Without reserved words, a refused claim is one whose name is taken. -/
theorem exists_collision {granted claims : List Plan.Claim} {problem : Conflict}
    (plain : ∀ claim ∈ claims, Verilog.isKeyword claim.name = false)
    (refused : Plan.refusedClaim? granted claims = some problem) :
    ∃ name owner first, problem = .signalCollision name owner first ∧
      2 ≤ ((granted ++ claims).map Plan.Claim.name).count name := by
  induction claims generalizing granted with
  | nil => cases refused
  | cons claim rest ih =>
    unfold Plan.refusedClaim? at refused
    rw [if_neg (by rw [plain claim List.mem_cons_self]; exact Bool.false_ne_true)] at refused
    cases taken : granted.find? fun other => other.name == claim.name with
    | some first =>
      rw [taken] at refused
      cases refused
      refine ⟨claim.name, claim.owner, first.owner, rfl, ?_⟩
      have same := List.find?_some taken
      rw [beq_iff_eq] at same
      have earlier : claim.name ∈ granted.map Plan.Claim.name := by
        rw [← same]
        exact List.mem_map_of_mem (List.mem_of_find?_eq_some taken)
      have one := List.count_pos_iff.mpr earlier
      rw [List.map_append, List.count_append, List.map_cons, List.count_cons_self]
      omega
    | none =>
      rw [taken] at refused
      obtain ⟨name, owner, first, collides, twice⟩ :=
        ih (fun other listed => plain other (List.mem_cons_of_mem _ listed)) refused
      refine ⟨name, owner, first, collides, ?_⟩
      -- A claim moves from the open ones to the granted ones: the same names are counted.
      have moved : (claim :: granted ++ rest).Perm (granted ++ claim :: rest) :=
        List.perm_middle.symm
      rw [← (moved.map Plan.Claim.name).count_eq]
      exact twice

/-- A plan is made exactly if all names of its layout differ, and what refuses it
otherwise is a collision.  All names are identifiers, none is reserved, and none
is one of the constants for the states of fields. -/
theorem make_eq_ok_iff_nodup {map : RegisterMap} {layout : Layout} (built : map.Built)
    (resolved : Layout.resolve map = .ok layout) (protocol : Bus.Protocol) :
    ((∃ plan, Plan.make layout protocol = .ok plan) ↔ (signalNames layout protocol).Nodup) ∧
      (¬ (signalNames layout protocol).Nodup → ∃ name owner first,
        Plan.make layout protocol = .error (.conflict (.signalCollision name owner first)) ∧
          2 ≤ (signalNames layout protocol).count name) ∧
      ∀ name ∈ signalNames layout protocol,
        Text.isIdentifier name = true ∧ Verilog.isKeyword name = false ∧
          name ∉ ["SC_IDLE", "SC_ASSERTED", "WO_OPEN", "WO_LOCKED"] := by
  have grantable := grantable_signalNames built resolved protocol
  have names := map_name_claims layout protocol
  have plain : ∀ claim ∈ Plan.claims layout.config protocol (Plan.draft layout),
      Verilog.isKeyword claim.name = false := by
    intro claim listed
    refine (grantable claim.name ?_).notReserved
    rw [← names]
    exact List.mem_map_of_mem listed
  have granted : Plan.refusedClaim? [] (Plan.claims layout.config protocol (Plan.draft layout)) =
      none ↔ (signalNames layout protocol).Nodup := by
    rw [Plan.refusedClaim?_eq_none_iff, names]
    constructor
    · exact fun accepted => accepted.2.1
    · intro distinct
      refine ⟨plain, distinct, ?_⟩
      intro claim _ other listed
      cases listed
  refine ⟨?_, ?_, ?_⟩
  · rw [← granted]
    unfold Plan.make
    cases found : Plan.refusedClaim? []
        (Plan.claims layout.config protocol (Plan.draft layout)) with
    | some problem => simp [found, conflict]
    | none => simp [found]
  · rw [← granted]
    intro refused
    obtain ⟨problem, found⟩ := Option.ne_none_iff_exists'.mp refused
    obtain ⟨name, owner, first, rfl, twice⟩ := exists_collision plain found
    refine ⟨name, owner, first, ?_, ?_⟩
    · unfold Plan.make
      simp only [found]
      rfl
    · rw [← names]
      exact twice
  · intro name listed
    have fine := grantable name listed
    exact ⟨fine.identifier, fine.notReserved, fine.notConstant⟩

/-- The calls that make a map in which a register `a_b` with a field `c` stands
beside a register `a` with a field `b_c`. -/
def collidingCalls : List Workbench.Call :=
  [.newConfiguration, .setOption 0 "naming.case" (.text "upper"),
    .newField "c" 0 1 .readWrite, .newField "b_c" 0 1 .readWrite,
    .newRegister "a_b", .onRegister 0 (.addField 0),
    .newRegister "a", .onRegister 1 (.addField 1),
    .newMap 0, .onMap 0 (.addRegisters [0, 1])]

/-- The map that these calls make. -/
def collidingMap : RegisterMap :=
  (Workbench.empty.run collidingCalls).maps.headD (.empty .default)

/-- Its layout, in which the registers follow each other. -/
def collidingLayout : Layout :=
  ⟨collidingMap, 32, 16, List.zipWith PlacedRegister.mk collidingMap.registers [0, 4]⟩

/-- An output port in upper case that meets another of the same name. -/
theorem make_eq_ok_iff_nodup_colliding :
    collidingMap.Built ∧ Layout.resolve collidingMap = .ok collidingLayout ∧
      "CSR_A_B_C_OUT" ∈ signalNames collidingLayout .apb ∧
      ¬ (signalNames collidingLayout .apb).Nodup ∧
      ∃ name owner first, Plan.make collidingLayout .apb =
        .error (.conflict (.signalCollision name owner first)) ∧
          2 ≤ (signalNames collidingLayout .apb).count name := by
  have built : collidingMap.Built := by
    have listed : (Workbench.empty.run collidingCalls).maps = [collidingMap] := rfl
    refine (Workbench.Built.empty.run collidingCalls).maps collidingMap ?_
    rw [listed]
    exact List.mem_singleton_self _
  have resolved : Layout.resolve collidingMap = .ok collidingLayout := rfl
  have twice : ¬ (signalNames collidingLayout .apb).Nodup := by decide
  exact ⟨built, resolved, by decide, twice,
    (make_eq_ok_iff_nodup built resolved .apb).2.1 twice⟩

end RegisterBank.Bank
