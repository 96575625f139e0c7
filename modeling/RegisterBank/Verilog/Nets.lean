/-!
# Numbers for nets

A table that gives each net of a module a number, be it a width or a value.
Only what it says of each name counts: a name that it does not list has the
number zero, and setting a net changes that net alone.
-/

namespace RegisterBank.Verilog

/-- A number for each net. -/
abbrev Nets := List (String × Nat)

namespace Nets

/-- The number of a net. -/
def get (name : String) : Nets → Nat
  | [] => 0
  | (other, number) :: rest => if other = name then number else get name rest

/-- The nets with another number for one of them. -/
def set (name : String) (number : Nat) : Nets → Nets
  | [] => [(name, number)]
  | (other, old) :: rest =>
    if other = name then (other, number) :: rest else (other, old) :: set name number rest

/-- A net holds what it is set to. -/
theorem get_set_self (nets : Nets) (name : String) (number : Nat) :
    (nets.set name number).get name = number := by
  induction nets with
  | nil => simp [set, get]
  | cons entry rest ih =>
    obtain ⟨other, old⟩ := entry
    by_cases h : other = name
    · simp [set, get, h]
    · simp [set, get, h, ih]

/-- Setting a net leaves the others alone. -/
theorem get_set_of_ne (nets : Nets) {name other : String} (number : Nat) (h : name ≠ other) :
    (nets.set name number).get other = nets.get other := by
  induction nets with
  | nil => simp [set, get, h]
  | cons entry rest ih =>
    obtain ⟨listed, old⟩ := entry
    by_cases hl : listed = name
    · subst hl
      simp [set, get, h]
    · simp [set, get, hl, ih]

end Nets

end RegisterBank.Verilog
