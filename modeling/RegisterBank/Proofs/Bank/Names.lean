import Mathlib.Data.List.Infix
import RegisterBank.Proofs.Bank.Accepted
import RegisterBank.Proofs.Text.Identifiers
import RegisterBank.Proofs.Text.SnakeCase

/-!
# Names of a plan

A plan's names are granted one after the other.  What is left when all are
granted is a statement about the list as a whole
(`refusedClaim?_eq_none_iff`): no name is reserved and none is claimed twice.

The constants for the states of fields are not claimed.  They differ from all
claimed names by how these end, and from names in snake case by having
capitals.
-/

namespace RegisterBank.Bank

/-! ## Granted names -/

/-- All claims are granted where no name is a keyword or claimed before. -/
theorem Plan.refusedClaim?_eq_none_iff {granted claims : List Plan.Claim} :
    Plan.refusedClaim? granted claims = none ↔
      (∀ claim ∈ claims, Verilog.isKeyword claim.name = false) ∧
      (claims.map Plan.Claim.name).Nodup ∧
      ∀ claim ∈ claims, ∀ other ∈ granted, other.name ≠ claim.name := by
  -- On the claims; what is granted grows by each of them, so it stays arbitrary.
  induction claims generalizing granted with
  | nil => simp [Plan.refusedClaim?]
  | cons claim rest ih =>
    unfold Plan.refusedClaim?
    cases reserved : Verilog.isKeyword claim.name with
    | true => simp [reserved]
    | false =>
      cases taken : granted.find? fun other => other.name == claim.name with
      | some first =>
        have listed := List.mem_of_find?_eq_some taken
        have same := List.find?_some taken
        simp only [beq_iff_eq] at same
        constructor
        · intro none
          cases none
        · rintro ⟨-, -, apart⟩
          exact absurd same (apart claim List.mem_cons_self first listed)
      | none =>
        rw [List.find?_eq_none] at taken
        have free : ∀ other ∈ granted, other.name ≠ claim.name := by
          intro other listed same
          exact taken other listed (beq_iff_eq.mpr same)
        simp only [Bool.false_eq_true, if_false]
        rw [ih, List.map_cons, List.nodup_cons]
        constructor
        · rintro ⟨keywords, distinct, apart⟩
          refine ⟨?_, ⟨?_, distinct⟩, ?_⟩
          · intro other listed
            rcases List.mem_cons.mp listed with rfl | listed
            · exact reserved
            · exact keywords other listed
          · intro again
            obtain ⟨other, listed, same⟩ := List.mem_map.mp again
            exact apart other listed claim List.mem_cons_self same.symm
          · intro other listed earlier member
            rcases List.mem_cons.mp listed with rfl | listed
            · exact free earlier member
            · exact apart other listed earlier (List.mem_cons_of_mem _ member)
        · rintro ⟨keywords, ⟨fresh, distinct⟩, apart⟩
          refine ⟨?_, distinct, ?_⟩
          · exact fun other listed => keywords other (List.mem_cons_of_mem _ listed)
          · intro other listed earlier member
            rcases List.mem_cons.mp member with rfl | member
            · intro same
              exact fresh (by rw [same]; exact List.mem_map_of_mem listed)
            · exact apart other (List.mem_cons_of_mem _ listed) earlier member

theorem Accepted.claims_nodup {map : RegisterMap} {layout : Layout} {protocol : Bus.Protocol}
    {plan : Plan} (accepted : Accepted map layout protocol plan) :
    ((Plan.claims layout.config protocol plan).map Plan.Claim.name).Nodup :=
  (Plan.refusedClaim?_eq_none_iff.mp accepted.plan_eq.2).2.1

/-! ## Constants -/

/-- The names of the constants for the states of fields. -/
def stateConstantNames : List String :=
  SelfClearState.all.map SelfClearState.constant ++ WriteOnceState.all.map WriteOnceState.constant

/-- What declares the constants are parameters of a single bit. -/
theorem exists_parameter_of_mem {plan : Plan} {item : Verilog.Item}
    (listed : item ∈ stateConstants plan) :
    ∃ name ∈ stateConstantNames, ∃ value < 2, item = .parameter name value := by
  unfold stateConstants at listed
  rcases List.mem_append.mp listed with listed | listed
  · split at listed
    · obtain ⟨state, member, rfl⟩ := List.mem_map.mp listed
      exact ⟨_, List.mem_append_left _ (List.mem_map_of_mem member), _,
        by cases state <;> decide, rfl⟩
    · cases listed
  · split at listed
    · obtain ⟨state, member, rfl⟩ := List.mem_map.mp listed
      exact ⟨_, List.mem_append_right _ (List.mem_map_of_mem member), _,
        by cases state <;> decide, rfl⟩
    · cases listed

theorem not_mem_constants_of_suffix {name : String} {ending : List Char}
    (ends : ending <:+ name.toList)
    (foreign : ∀ constant ∈ stateConstantNames, ¬ ending <:+ constant.toList) :
    name ∉ stateConstantNames :=
  fun listed => foreign name listed ends

/-- Endings that no state constant has keep a name apart from them. -/
theorem not_mem_constants_append {name ending : String}
    (foreign : ∀ constant ∈ stateConstantNames, ¬ ending.toList <:+ constant.toList) :
    name ++ ending ∉ stateConstantNames := by
  refine not_mem_constants_of_suffix ?_ foreign
  rw [String.toList_append]
  exact List.suffix_append _ _

/-- Every constant has a capital. -/
theorem not_mem_constants_of_small {name : String}
    (small : ∀ c ∈ name.toList, c.isUpper = false) : name ∉ stateConstantNames := by
  have capital : ∀ constant ∈ stateConstantNames, constant.toList.any Char.isUpper = true := by
    decide
  intro listed
  obtain ⟨c, member, upper⟩ := List.any_eq_true.mp (capital name listed)
  rw [small c member] at upper
  cases upper

/-- A port is called by its direction in any case convention. -/
theorem port_not_mem_constants (config : Configuration) (register : Register) (field : Field) :
    (planField config register field).port ∉ stateConstantNames := by
  have ending (template : Template) :
      template.portSuffix = "_in" ∨ template.portSuffix = "_out" := by
    unfold Template.portSuffix
    cases template.direction
    · exact Or.inl rfl
    · exact Or.inr rfl
  have kept (start ending : String) (either : ending = "_in" ∨ ending = "_out") :
      start ++ ending ∉ stateConstantNames := by
    rcases either with rfl | rfl
    · exact not_mem_constants_append (by decide)
    · exact not_mem_constants_append (by decide)
  have raised (start ending : String) (either : ending = "_in" ∨ ending = "_out") :
      Text.upperCase (start ++ ending) ∉ stateConstantNames := by
    have chars : (ending.toList.map Char.toUpper) <:+
        (Text.upperCase (start ++ ending)).toList := by
      unfold Text.upperCase
      rw [String.toList_ofList, String.toList_append, List.map_append]
      exact List.suffix_append _ _
    rcases either with rfl | rfl
    · exact not_mem_constants_of_suffix chars (by decide)
    · exact not_mem_constants_of_suffix chars (by decide)
  unfold planField NamingCase.apply
  cases config.namingCase with
  | keep => exact kept _ _ (ending _)
  | lower => exact not_mem_constants_of_small Text.isUpper_of_mem_lowerCase
  | upper => exact raised _ _ (ending _)
  | snake => exact not_mem_constants_of_small Text.isUpper_of_mem_snakeCase

/-! ## Names of modules -/

/-- The bus family and the map's name make an identifier. -/
theorem isIdentifier_moduleName (protocol : Bus.Protocol) {mapName : String}
    (named : Text.isIdentifier mapName = true) :
    Text.isIdentifier (protocol.moduleName mapName) = true := by
  have start : Text.isIdentifier (protocol.word ++ "2lb_") = true := by
    cases protocol <;> decide
  exact Text.isIdentifier_append start fun c listed => Text.isIdentifierRest_of_mem named listed

end RegisterBank.Bank
