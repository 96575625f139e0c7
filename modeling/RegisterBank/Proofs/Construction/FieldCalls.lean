import RegisterBank.Proofs.Construction.Workbench

/-!
# Calls that make up a field

A field is made and then given its initial value and its modifiers, and every
call checks the field as it is so far.  Along the calls modifiers only become
more, and the initial value leaves zero at most once.  Fewer modifiers and an
initial value of zero break no rule that the finished field obeys
(`Field.problem?_eq_none_of_fewer`), so no check on the way says more than the
last one.  Whether the calls succeed and what they make is therefore up to what
they add in all and not to their order (`Field.foldlM_applyField_eq_ok_iff`).
-/

namespace RegisterBank

open Workbench (FieldCall applyField)

/-- A modifier that says what a write does. -/
def Modifier.ActsOnWrite (modifier : Modifier) : Prop :=
  modifier = .selfClear ∨ modifier = .writePulse ∨ modifier = .writeOnce

instance (modifier : Modifier) : Decidable modifier.ActsOnWrite :=
  inferInstanceAs (Decidable (_ ∨ _))

theorem Modifier.exclusive_of_actsOnWrite {modifier other : Modifier}
    (acts : modifier.ActsOnWrite) (acts' : other.ActsOnWrite) (different : modifier ≠ other) :
    (modifier, other) ∈ exclusivePairs ∨ (other, modifier) ∈ exclusivePairs := by
  revert acts acts' different
  cases modifier <;> cases other <;> decide

/-- Modifiers exclude each other if both say what a write does, or if one sends
the value back and the other clears it on reads. -/
theorem Modifier.cases_of_exclusive : ∀ pair ∈ exclusivePairs,
    (pair.1.ActsOnWrite ∧ pair.2.ActsOnWrite ∧ pair.1 ≠ pair.2) ∨
      (pair.2 = .readClear ∧ (pair.1 = .selfClear ∨ pair.1 = .writePulse)) := by
  decide

/-! ## What calls add -/

namespace Workbench.FieldCall

/-- The initial value that a call sets, if it sets one. -/
def initial? : FieldCall → Option Nat
  | .withInitial initial => some initial
  | .withDescription _ | .withModifier _ | .withModifiers _ => none

/-- The modifiers that a call adds. -/
def modifiers : FieldCall → List Modifier
  | .withModifier modifier => [modifier]
  | .withModifiers modifiers => modifiers
  | .withDescription _ | .withInitial _ => []

/-- Whether a call is about the description, on which no rule depends. -/
def isDescription : FieldCall → Bool
  | .withDescription _ => true
  | .withInitial _ | .withModifier _ | .withModifiers _ => false

end Workbench.FieldCall

namespace Field

/-- Calls of which one sets the initial value and all others add modifiers, some
at a time, which are certain ones in all. -/
structure Completes (initial : Nat) (modifiers : List Modifier) (calls : List FieldCall) :
    Prop where
  initial : calls.filterMap FieldCall.initial? = [initial]
  modifiers : ∀ modifier, modifier ∈ calls.flatMap FieldCall.modifiers ↔ modifier ∈ modifiers
  undescribed : ∀ call ∈ calls, call.isDescription = false

/-- What calls make of a new field, unless one of them is refused. -/
def build (name : String) (lsb width : Nat) (access : Access) (calls : List FieldCall) :
    Result Field :=
  Field.make name lsb width access >>= fun field => calls.foldlM applyField field

/-- A field after calls whose checks are left out. -/
def unchecked (field : Field) (calls : List FieldCall) : Field :=
  { field with
    initial := (calls.filterMap FieldCall.initial?).getLastD field.initial
    modifiers := field.modifiers.insertAll (calls.flatMap FieldCall.modifiers) }

theorem unchecked_cons (field : Field) (call : FieldCall) (rest : List FieldCall) :
    (field.unchecked [call]).unchecked rest = field.unchecked (call :: rest) := by
  have initial : (rest.filterMap FieldCall.initial?).getLastD
      (([call].filterMap FieldCall.initial?).getLastD field.initial) =
        ((call :: rest).filterMap FieldCall.initial?).getLastD field.initial := by
    rw [List.filterMap_cons, List.filterMap_cons, List.filterMap_nil]
    cases call.initial? with
    | none => rfl
    | some value => exact List.getLastD_cons.symm
  have modifiers : (field.modifiers.insertAll ([call].flatMap FieldCall.modifiers)).insertAll
      (rest.flatMap FieldCall.modifiers) =
        field.modifiers.insertAll ((call :: rest).flatMap FieldCall.modifiers) := by
    rw [List.flatMap_cons, List.flatMap_cons, List.flatMap_nil, List.append_nil]
    exact List.foldl_append.symm
  unfold unchecked
  dsimp only
  rw [initial, modifiers]

theorem has_unchecked {field : Field} {calls : List FieldCall} {modifier : Modifier} :
    (field.unchecked calls).has modifier = true ↔
      modifier ∈ calls.flatMap FieldCall.modifiers ∨ field.has modifier = true :=
  Modifiers.has_insertAll

theorem applyField_eq_checked {call : FieldCall} (undescribed : call.isDescription = false)
    (field : Field) : applyField field call = (field.unchecked [call]).checked := by
  cases call with
  | withDescription description => cases undescribed
  | withInitial initial => rfl
  | withModifier modifier => rfl
  | withModifiers modifiers =>
    unfold unchecked
    rw [List.flatMap_singleton]
    rfl

/-! ## Checks on the way -/

/-- A field obeys the rules if one of the same range and access does that has its
modifiers and maybe more, and its initial value unless it has none. -/
theorem problem?_eq_none_of_fewer {field finished : Field}
    (narrow : finished.bits.width ≤ Bits.wordWidth) (bits : field.bits = finished.bits)
    (access : field.access = finished.access)
    (initial : field.initial = 0 ∨ field.initial = finished.initial)
    (fewer : ∀ modifier, field.has modifier = true → finished.has modifier = true)
    (fine : finished.problem? = none) : field.problem? = none := by
  obtain ⟨fits, allowed, exclusive, reverts⟩ := (problem?_eq_none_iff narrow).mp fine
  rw [← bits] at narrow
  refine (problem?_eq_none_iff narrow).mpr ⟨?_, ?_, ?_, ?_⟩
  · rw [bits]
    rcases initial with zero | same
    · rw [zero]
      exact Nat.two_pow_pos _
    · rw [same]
      exact fits
  · intro modifier has
    rw [access]
    exact allowed modifier (fewer modifier has)
  · intro pair listed both
    exact exclusive pair listed ⟨fewer pair.1 both.1, fewer pair.2 both.2⟩
  · intro back
    rcases initial with zero | same
    · exact zero
    · rw [same]
      refine reverts ?_
      unfold Field.reverts at back ⊢
      rw [Bool.or_eq_true] at back ⊢
      exact back.imp (fewer .selfClear) (fewer .writePulse)

/-- Calls succeed on a field exactly if what they make of it without checks obeys
the rules, provided that at most one of them sets the initial value, and does so
while it is zero. -/
theorem foldlM_applyField_eq_ok_iff {field finished : Field} {calls : List FieldCall}
    (narrow : field.bits.width ≤ Bits.wordWidth) (fine : field.problem? = none)
    (undescribed : ∀ call ∈ calls, call.isDescription = false)
    (once : (calls.filterMap FieldCall.initial?).length ≤ 1)
    (zero : field.initial = 0 ∨ calls.filterMap FieldCall.initial? = []) :
    calls.foldlM applyField field = .ok finished ↔
      finished = field.unchecked calls ∧ finished.problem? = none := by
  induction calls generalizing field with
  | nil =>
    constructor
    · intro done
      cases done
      exact ⟨rfl, fine⟩
    · rintro ⟨rfl, -⟩
      rfl
  | cons call rest ih =>
    obtain ⟨plain, others⟩ := List.forall_mem_cons.mp undescribed
    rw [List.filterMap_cons] at once zero
    -- Either nothing has set the initial value yet, or nothing will set it any more.
    have onward : (rest.filterMap FieldCall.initial?).length ≤ 1 ∧
        ((field.unchecked [call]).initial = 0 ∨ rest.filterMap FieldCall.initial? = []) := by
      unfold unchecked
      rw [List.filterMap_cons, List.filterMap_nil]
      cases sets : call.initial? with
      | none =>
        rw [sets] at once zero
        exact ⟨once, zero⟩
      | some value =>
        rw [sets] at once
        have last : rest.filterMap FieldCall.initial? = [] :=
          List.length_eq_zero_iff.mp (Nat.le_zero.mp (Nat.le_of_succ_le_succ once))
        rw [last]
        exact ⟨Nat.zero_le 1, .inr rfl⟩
    have later : (field.unchecked [call]).problem? = none →
        (rest.foldlM applyField (field.unchecked [call]) = .ok finished ↔
          finished = field.unchecked (call :: rest) ∧ finished.problem? = none) := by
      have sameWidth : (field.unchecked [call]).bits.width ≤ Bits.wordWidth := narrow
      rw [← unchecked_cons field call rest]
      exact fun passed => ih sameWidth passed others onward.1 onward.2
    rw [List.foldlM_cons, bind_eq_ok_iff, applyField_eq_checked plain]
    constructor
    · rintro ⟨next, stepped, done⟩
      obtain ⟨rfl, passed⟩ := checked_eq_ok_iff.mp stepped
      exact (later passed).mp done
    · rintro ⟨rfl, obeys⟩
      rw [← unchecked_cons field call rest] at obeys
      have sameWidth : ((field.unchecked [call]).unchecked rest).bits.width ≤ Bits.wordWidth :=
        narrow
      have kept : rest.filterMap FieldCall.initial? = [] →
          (field.unchecked [call]).initial =
            ((field.unchecked [call]).unchecked rest).initial := by
        intro unset
        show _ = (rest.filterMap FieldCall.initial?).getLastD _
        rw [unset]
        rfl
      have fewer (modifier : Modifier) (has : (field.unchecked [call]).has modifier = true) :
          ((field.unchecked [call]).unchecked rest).has modifier = true :=
        has_unchecked.mpr (.inr has)
      have passed : (field.unchecked [call]).problem? = none :=
        problem?_eq_none_of_fewer sameWidth rfl rfl (onward.2.imp_right kept) fewer obeys
      rw [unchecked_cons] at obeys
      exact ⟨_, checked_eq_ok_iff.mpr ⟨rfl, passed⟩, (later passed).mpr ⟨rfl, obeys⟩⟩

/-! ## Legal fields -/

/-- What the rules say of a new field with an initial value and some modifiers. -/
structure Legal (name : String) (lsb width : Nat) (access : Access) (initial : Nat)
    (modifiers : List Modifier) : Prop where
  identifier : Text.isIdentifier name = true
  width_pos : 1 ≤ width
  above_le : lsb + width ≤ 64
  initial_lt : initial < 2 ^ width
  writable : ∀ modifier ∈ modifiers, modifier.ActsOnWrite →
    access = .readWrite ∨ access = .writeOnly
  single : ∀ modifier ∈ modifiers, ∀ other ∈ modifiers,
    modifier.ActsOnWrite → other.ActsOnWrite → modifier = other
  readable : .readClear ∈ modifiers → access = .readWrite ∨ access = .readOnly
  kept : .readClear ∈ modifiers → .selfClear ∉ modifiers ∧ .writePulse ∉ modifiers
  reverts : .selfClear ∈ modifiers ∨ .writePulse ∈ modifiers → initial = 0

/-- A new field with an initial value and modifiers, unchecked. -/
def drafted (name : String) (lsb width : Nat) (access : Access) (initial : Nat)
    (modifiers : List Modifier) : Field :=
  ⟨name, "", ⟨lsb, width⟩, access, initial, Modifiers.none.insertAll modifiers⟩

section Drafted

variable {name : String} {lsb width : Nat} {access : Access} {initial : Nat}
  {modifiers : List Modifier}

theorem has_drafted {modifier : Modifier} :
    (drafted name lsb width access initial modifiers).has modifier = true ↔
      modifier ∈ modifiers :=
  Modifiers.has_none_insertAll

theorem allows_iff {modifier : Modifier} :
    Allows access modifier ↔
      (modifier.ActsOnWrite → access = .readWrite ∨ access = .writeOnly) ∧
        (modifier = .readClear → access = .readWrite ∨ access = .readOnly) := by
  unfold Allows
  cases modifier <;> cases access <;> decide

/-- No two modifiers exclude each other exactly if at most one of them acts on
writes, and none of those that send the value back comes with clearing reads. -/
theorem exclusive_iff :
    (∀ pair ∈ Modifier.exclusivePairs, ¬ (pair.1 ∈ modifiers ∧ pair.2 ∈ modifiers)) ↔
      (∀ modifier ∈ modifiers, ∀ other ∈ modifiers,
        modifier.ActsOnWrite → other.ActsOnWrite → modifier = other) ∧
      (.readClear ∈ modifiers → .selfClear ∉ modifiers ∧ .writePulse ∉ modifiers) := by
  constructor
  · intro exclusive
    refine ⟨?_, fun reads => ⟨?_, ?_⟩⟩
    · intro modifier listed other listed' acts acts'
      by_contra different
      rcases Modifier.exclusive_of_actsOnWrite acts acts' different with pair | pair
      · exact exclusive _ pair ⟨listed, listed'⟩
      · exact exclusive _ pair ⟨listed', listed⟩
    · exact fun clears => exclusive (.selfClear, .readClear) (by decide) ⟨clears, reads⟩
    · exact fun pulses => exclusive (.writePulse, .readClear) (by decide) ⟨pulses, reads⟩
  · rintro ⟨single, kept⟩ pair listed ⟨first, second⟩
    rcases Modifier.cases_of_exclusive pair listed with ⟨acts, acts', different⟩ | ⟨reads, back⟩
    · exact different (single _ first _ second acts acts')
    · rw [reads] at second
      rcases back with clears | pulses
      · exact (kept second).1 (clears ▸ first)
      · exact (kept second).2 (pulses ▸ first)

theorem legal_iff :
    Legal name lsb width access initial modifiers ↔
      Text.isIdentifier name = true ∧ 0 < width ∧ lsb + width ≤ Bits.wordWidth ∧
        (drafted name lsb width access initial modifiers).problem? = none := by
  have rules (above : lsb + width ≤ Bits.wordWidth) :=
    problem?_eq_none_iff (show (drafted name lsb width access initial modifiers).bits.width ≤
      Bits.wordWidth from Nat.le_trans (Nat.le_add_left _ _) above)
  have reverts : (drafted name lsb width access initial modifiers).reverts = true ↔
      .selfClear ∈ modifiers ∨ .writePulse ∈ modifiers := by
    unfold Field.reverts
    rw [Bool.or_eq_true, has_drafted, has_drafted]
  simp only [has_drafted, reverts, allows_iff, exclusive_iff] at rules
  constructor
  · intro legal
    refine ⟨legal.identifier, legal.width_pos, legal.above_le, (rules legal.above_le).mpr ?_⟩
    refine ⟨legal.initial_lt, ?_, ⟨legal.single, legal.kept⟩, legal.reverts⟩
    intro modifier listed
    refine ⟨legal.writable modifier listed, ?_⟩
    rintro rfl
    exact legal.readable listed
  · rintro ⟨identifier, positive, above, fine⟩
    obtain ⟨fits, allowed, ⟨single, kept⟩, back⟩ := (rules above).mp fine
    exact
      { identifier := identifier
        width_pos := positive
        above_le := above
        initial_lt := fits
        writable := fun modifier listed => (allowed modifier listed).1
        single := single
        readable := fun listed => (allowed _ listed).2 rfl
        kept := kept
        reverts := back }

/-- What calls make of a new field is up to what they add. -/
theorem build_eq_ok_iff {calls : List FieldCall} (completes : Completes initial modifiers calls)
    {field : Field} :
    build name lsb width access calls = .ok field ↔
      field = drafted name lsb width access initial modifiers ∧
        Legal name lsb width access initial modifiers := by
  have added : (⟨name, "", ⟨lsb, width⟩, access, 0, .none⟩ : Field).unchecked calls =
      drafted name lsb width access initial modifiers := by
    unfold unchecked drafted
    dsimp only
    rw [completes.initial, Modifiers.none_insertAll_eq_iff.mpr]
    · rfl
    · exact fun modifier => Modifiers.has_none_insertAll.trans (completes.modifiers modifier).symm
  have once : (calls.filterMap FieldCall.initial?).length ≤ 1 := by
    rw [completes.initial]
    exact Nat.le_refl 1
  unfold build
  rw [bind_eq_ok_iff, legal_iff]
  constructor
  · rintro ⟨new, made, done⟩
    have valid := Valid.of_make made
    obtain ⟨identifier, positive, above, rfl⟩ := make_eq_ok_iff.mp made
    obtain ⟨same, fine⟩ := (foldlM_applyField_eq_ok_iff valid.width_le valid.problem?_eq_none
      completes.undescribed once (.inl rfl)).mp done
    rw [added] at same
    subst same
    exact ⟨rfl, identifier, positive, above, fine⟩
  · rintro ⟨rfl, identifier, positive, above, fine⟩
    have made : Field.make name lsb width access =
        .ok ⟨name, "", ⟨lsb, width⟩, access, 0, .none⟩ :=
      make_eq_ok_iff.mpr ⟨identifier, positive, above, rfl⟩
    have valid := Valid.of_make made
    refine ⟨_, made, (foldlM_applyField_eq_ok_iff valid.width_le valid.problem?_eq_none
      completes.undescribed once (.inl rfl)).mpr ?_⟩
    rw [added]
    exact ⟨rfl, fine⟩

end Drafted

/-- **Whatever the order of the calls, they make exactly the legal fields.**  Calls
that set the initial value once and add modifiers, one by one or together,
succeed exactly if the field that they describe is legal, and then make that
field. -/
theorem build_accepts_iff (name : String) (lsb width : Nat) (access : Access) (initial : Nat)
    (modifiers : List Modifier) {calls : List FieldCall}
    (completes : Completes initial modifiers calls) :
    ((∃ field, build name lsb width access calls = .ok field) ↔
      Legal name lsb width access initial modifiers) ∧
    (∀ field, build name lsb width access calls = .ok field →
      field.name = name ∧ field.description = "" ∧ field.bits = ⟨lsb, width⟩ ∧
        field.access = access ∧ field.initial = initial ∧
        ∀ modifier, field.has modifier = true ↔ modifier ∈ modifiers) ∧
    ∀ others, Completes initial modifiers others → ∀ field,
      build name lsb width access others = .ok field ↔
        build name lsb width access calls = .ok field := by
  refine ⟨?_, ?_, ?_⟩
  · simp only [build_eq_ok_iff completes, exists_eq_left]
  · intro field built
    obtain ⟨rfl, -⟩ := (build_eq_ok_iff completes).mp built
    exact ⟨rfl, rfl, rfl, rfl, rfl, fun modifier => has_drafted⟩
  · intro others same field
    rw [build_eq_ok_iff completes, build_eq_ok_iff same]

/-- A token that is written once and cleared by reads, with its modifiers one by
one around the initial value, and with one of them again. -/
def tokenCalls : List FieldCall :=
  [.withModifier .readClear, .withInitial 0x7c7, .withModifiers [.writeOnce, .readClear]]

theorem completes_tokenCalls : Completes 0x7c7 [.writeOnce, .readClear] tokenCalls where
  initial := rfl
  modifiers := by intro modifier; cases modifier <;> decide
  undescribed := by decide

theorem build_accepts_iff_token :
    (∃ field, build "token" 52 12 .readWrite tokenCalls = .ok field) ∧
      ¬ (∃ field, build "token" 53 12 .readWrite tokenCalls = .ok field) ∧
      ¬ (∃ field, build "token" 52 12 .readOnly tokenCalls = .ok field) ∧
      build "token" 52 12 .readWrite tokenCalls.reverse =
        .ok ⟨"token", "", ⟨52, 12⟩, .readWrite, 0x7c7, ⟨false, false, true, true⟩⟩ := by
  have reversed : Completes 0x7c7 [.writeOnce, .readClear] tokenCalls.reverse :=
    { initial := rfl
      modifiers := by intro modifier; cases modifier <;> decide
      undescribed := by decide }
  have accepts (lsb : Nat) (access : Access) :=
    build_accepts_iff "token" lsb 12 access 0x7c7 [.writeOnce, .readClear] completes_tokenCalls
  refine ⟨⟨_, rfl⟩, ?_, ?_, ((accepts 52 .readWrite).2.2 _ reversed _).mpr rfl⟩
  · intro built
    exact absurd ((accepts 53 .readWrite).1.mp built).above_le (by decide)
  · intro built
    exact absurd (((accepts 52 .readOnly).1.mp built).writable .writeOnce (by decide) (by decide))
      (by decide)

end Field

end RegisterBank
