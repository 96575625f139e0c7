import Mathlib.Data.List.MinMax
import Mathlib.Order.Bounds.Basic
import RegisterBank.Proofs.Construction.Maps
import RegisterBank.Layout

/-!
# Documented addresses

`Documented increment earlier registers addresses` is the rule of the layout as
it is told to users, without the loop that carries out placements: an explicit
address is kept, the first register of a map gets address 0 if it has none, and
any other gets the least multiple of the increment above all addresses before
it.  Only addresses enter, so the rule also speaks of maps that cannot be laid
out, with addresses that are too large or taken.

A list of registers has exactly one list of documented addresses
(`Documented.unique`, `exists_documented`), and all of them are multiples of the
increment if the explicit ones are (`Documented.dvd`).
-/

namespace RegisterBank.Layout

/-- The addresses that a rule for users gives to registers declared after
others at the addresses `earlier`. -/
inductive Documented (increment : Nat) : List Nat → List Register → List Nat → Prop
  | nil {earlier : List Nat} : Documented increment earlier [] []
  | explicit {earlier addresses : List Nat} {register : Register} {rest : List Register}
      {address : Nat} :
    register.address = some address →
    Documented increment (earlier ++ [address]) rest addresses →
    Documented increment earlier (register :: rest) (address :: addresses)
  | first {addresses : List Nat} {register : Register} {rest : List Register} :
    register.address = none →
    Documented increment [0] rest addresses →
    Documented increment [] (register :: rest) (0 :: addresses)
  | next {earlier addresses : List Nat} {register : Register} {rest : List Register}
      {address : Nat} :
    register.address = none → earlier ≠ [] →
    IsLeast {multiple | increment ∣ multiple ∧ ∀ used ∈ earlier, used < multiple} address →
    Documented increment (earlier ++ [address]) rest addresses →
    Documented increment earlier (register :: rest) (address :: addresses)

/-! ## The next multiple -/

/-- The greatest address in use decides which multiples are above all. -/
theorem isLeast_next {increment highest : Nat} (positive : 0 < increment) {earlier : List Nat}
    (greatest : earlier.max? = some highest) :
    IsLeast {multiple | increment ∣ multiple ∧ ∀ used ∈ earlier, used < multiple}
      ((highest / increment + 1) * increment) := by
  rw [List.max?_eq_some_iff] at greatest
  obtain ⟨listed, above⟩ := greatest
  constructor
  · refine ⟨Nat.dvd_mul_left _ _, ?_⟩
    intro used earlierUsed
    have inside : used ≤ highest := above used earlierUsed
    have beyond : highest < (highest / increment + 1) * increment := by
      rw [Nat.add_mul, Nat.one_mul]
      exact Nat.lt_div_mul_add positive
    omega
  · rintro multiple ⟨⟨factor, rfl⟩, beyond⟩
    have passed : highest < increment * factor := beyond highest listed
    have quotient : highest / increment < factor := by
      rw [Nat.div_lt_iff_lt_mul positive, Nat.mul_comm]
      exact passed
    rw [Nat.mul_comm increment factor]
    exact Nat.mul_le_mul_right increment quotient

/-- The next multiple is no further away than the increment. -/
theorem next_le (increment highest : Nat) :
    (highest / increment + 1) * increment ≤ highest + increment := by
  rw [Nat.add_mul, Nat.one_mul]
  exact Nat.add_le_add_right (Nat.div_mul_le_self highest increment) increment

theorem exists_max? {earlier : List Nat} (occupied : earlier ≠ []) :
    ∃ highest, earlier.max? = some highest := by
  cases greatest : earlier.max? with
  | none => exact absurd (List.max?_eq_none_iff.mp greatest) occupied
  | some highest => exact ⟨highest, rfl⟩

/-! ## One list of addresses -/

namespace Documented

variable {increment : Nat} {earlier addresses others : List Nat} {registers : List Register}

theorem unique (documented : Documented increment earlier registers addresses)
    (other : Documented increment earlier registers others) : addresses = others := by
  induction documented generalizing others with
  | nil =>
    cases other
    rfl
  | explicit given _ ih =>
    cases other with
    | explicit given' rest' =>
      rw [given] at given'
      cases given'
      rw [ih rest']
    | first free _ => rw [given] at free; cases free
    | next free _ _ _ => rw [given] at free; cases free
  | first free _ ih =>
    cases other with
    | explicit given _ => rw [free] at given; cases given
    | first _ rest' => rw [ih rest']
    | next _ occupied _ _ => exact absurd rfl occupied
  | next free occupied least _ ih =>
    cases other with
    | explicit given _ => rw [free] at given; cases given
    | first _ _ => exact absurd rfl occupied
    | next _ _ least' rest' =>
      cases least.unique least'
      rw [ih rest']

theorem length_eq (documented : Documented increment earlier registers addresses) :
    addresses.length = registers.length := by
  induction documented with
  | nil => rfl
  | explicit _ _ ih => rw [List.length_cons, List.length_cons, ih]
  | first _ _ ih => rw [List.length_cons, List.length_cons, ih]
  | next _ _ _ _ ih => rw [List.length_cons, List.length_cons, ih]

/-- Explicit addresses that are multiples make all addresses multiples. -/
theorem dvd (documented : Documented increment earlier registers addresses)
    (aligned : ∀ register ∈ registers, ∀ address, register.address = some address →
      increment ∣ address) :
    ∀ address ∈ addresses, increment ∣ address := by
  induction documented with
  | nil => intro address listed; cases listed
  | @explicit _ _ register _ address given _ ih =>
    intro other listed
    rcases List.mem_cons.mp listed with rfl | listed
    · exact aligned register List.mem_cons_self _ given
    · exact ih (fun later member => aligned later (List.mem_cons_of_mem _ member)) other listed
  | first _ _ ih =>
    intro other listed
    rcases List.mem_cons.mp listed with rfl | listed
    · exact Nat.dvd_zero increment
    · exact ih (fun later member => aligned later (List.mem_cons_of_mem _ member)) other listed
  | next _ _ least _ ih =>
    intro other listed
    rcases List.mem_cons.mp listed with rfl | listed
    · exact least.1.1
    · exact ih (fun later member => aligned later (List.mem_cons_of_mem _ member)) other listed

/-- A register with an explicit address is there. -/
theorem kept (documented : Documented increment earlier registers addresses) :
    ∀ placed ∈ List.zipWith PlacedRegister.mk registers addresses,
      ∀ address, placed.register.address = some address → placed.address = address := by
  induction documented with
  | nil => intro placed listed; cases listed
  | explicit given _ ih =>
    intro placed listed other pinned
    rcases List.mem_cons.mp listed with rfl | listed
    · exact Option.some.inj (given.symm.trans pinned)
    · exact ih placed listed other pinned
  | first free _ ih =>
    intro placed listed other pinned
    rcases List.mem_cons.mp listed with rfl | listed
    · cases free.symm.trans pinned
    · exact ih placed listed other pinned
  | next free _ _ _ ih =>
    intro placed listed other pinned
    rcases List.mem_cons.mp listed with rfl | listed
    · cases free.symm.trans pinned
    · exact ih placed listed other pinned

/-- A register without an explicit address lies above all that were declared
before it. -/
theorem above (documented : Documented increment earlier registers addresses) :
    (∀ placed ∈ List.zipWith PlacedRegister.mk registers addresses,
      placed.register.address = none → ∀ used ∈ earlier, used < placed.address) ∧
    (List.zipWith PlacedRegister.mk registers addresses).Pairwise fun before after =>
      after.register.address = none → before.address < after.address := by
  induction documented with
  | nil =>
    constructor
    · intro placed listed
      cases listed
    · exact List.Pairwise.nil
  | @explicit earlier addresses register rest address given _ ih =>
    obtain ⟨outside, pairs⟩ := ih
    constructor
    · intro placed listed free used listedUsed
      rcases List.mem_cons.mp listed with rfl | listed
      · rw [given] at free
        cases free
      · exact outside placed listed free used (List.mem_append_left _ listedUsed)
    · refine List.Pairwise.cons ?_ pairs
      intro placed listed free
      exact outside placed listed free address (by simp)
  | first _ _ ih =>
    obtain ⟨outside, pairs⟩ := ih
    constructor
    · intro placed listed free used listedUsed
      cases listedUsed
    · refine List.Pairwise.cons ?_ pairs
      intro placed listed free
      exact outside placed listed free 0 List.mem_cons_self
  | @next earlier addresses register rest address _ _ least _ ih =>
    obtain ⟨outside, pairs⟩ := ih
    constructor
    · intro placed listed free used listedUsed
      rcases List.mem_cons.mp listed with rfl | listed
      · exact least.1.2 used listedUsed
      · exact outside placed listed free used (List.mem_append_left _ listedUsed)
    · refine List.Pairwise.cons ?_ pairs
      intro placed listed free
      exact outside placed listed free address (by simp)

end Documented

theorem exists_documented {increment : Nat} (positive : 0 < increment) (earlier : List Nat)
    (registers : List Register) : ∃ addresses, Documented increment earlier registers addresses := by
  induction registers generalizing earlier with
  | nil => exact ⟨[], .nil⟩
  | cons register rest ih =>
    cases given : register.address with
    | some address =>
      rcases ih (earlier ++ [address]) with ⟨addresses, documented⟩
      exact ⟨_, .explicit given documented⟩
    | none =>
      by_cases start : earlier = []
      · subst start
        rcases ih [0] with ⟨addresses, documented⟩
        exact ⟨_, .first given documented⟩
      -- The least address above all earlier ones follows the greatest of them.
      · rcases exists_max? start with ⟨highest, greatest⟩
        rcases ih _ with ⟨addresses, documented⟩
        exact ⟨_, .next given start (isLeast_next positive greatest) documented⟩

end RegisterBank.Layout
