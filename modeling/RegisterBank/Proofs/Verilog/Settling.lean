import Mathlib.Data.List.Basic
import RegisterBank.Verilog.Meaning

/-!
# Settled nets

Continuous assignments are carried out in the order of the items.  If no item
assigns a net that it or an earlier item reads or assigns (`Ordered`), the
order leaves no trace: in the settled nets every continuous assignment holds as
an equation (`get_settle_of_mem`), and nets that none assigns keep their
values (`get_settle_of_forall`).
-/

namespace RegisterBank.Verilog

/-! ## What an expression reads -/

mutual

/-- The nets that an expression reads. -/
def Expr.nets : Expr → List String
  | .net name => [name]
  | .select name _ => [name]
  | .hex _ _ => []
  | .binary _ _ => []
  | .invert operand => operand.nets
  | .isFalse operand => operand.nets
  | .anyBit operand => operand.nets
  | .bitAnd left right => left.nets ++ right.nets
  | .bitOr left right => left.nets ++ right.nets
  | .both left right => left.nets ++ right.nets
  | .equals left right => left.nets ++ right.nets
  | .choose condition yes no => condition.nets ++ (yes.nets ++ no.nets)
  | .paren inner => inner.nets
  | .concat parts => partsNets parts
  | .replicate _ part => part.nets

/-- The nets that vectors side by side read. -/
def partsNets : List Expr → List String
  | [] => []
  | part :: rest => part.nets ++ partsNets rest

end

theorem exists_of_mem_partsNets {parts : List Expr} {net : String}
    (listed : net ∈ partsNets parts) : ∃ part ∈ parts, net ∈ part.nets := by
  induction parts with
  | nil => cases listed
  | cons part rest ih =>
    rcases List.mem_append.mp listed with here | behind
    · exact ⟨part, List.mem_cons_self, here⟩
    · rcases ih behind with ⟨other, member, read⟩
      exact ⟨other, List.mem_cons_of_mem _ member, read⟩

section Agree

variable {widths values others : Nets}

theorem agree_left {left right : List String}
    (agree : ∀ net ∈ left ++ right, values.get net = others.get net) :
    ∀ net ∈ left, values.get net = others.get net :=
  fun net listed => agree net (List.mem_append_left _ listed)

theorem agree_right {left right : List String}
    (agree : ∀ net ∈ left ++ right, values.get net = others.get net) :
    ∀ net ∈ right, values.get net = others.get net :=
  fun net listed => agree net (List.mem_append_right _ listed)

mutual

/-- The value of an expression depends on the nets that it reads. -/
theorem Expr.value_congr : (expr : Expr) →
    (∀ net ∈ expr.nets, values.get net = others.get net) →
    expr.value widths values = expr.value widths others
  | .net name, agree => agree name List.mem_cons_self
  | .select name bits, agree => by
    unfold Expr.value
    rw [agree name List.mem_cons_self]
  | .hex _ _, _ => rfl
  | .binary _ _, _ => rfl
  | .invert operand, agree => by
    unfold Expr.value
    rw [operand.value_congr agree]
  | .isFalse operand, agree => by
    unfold Expr.value
    rw [operand.value_congr agree]
  | .anyBit operand, agree => by
    unfold Expr.value
    rw [operand.value_congr agree]
  | .bitAnd left right, agree => by
    unfold Expr.value
    rw [left.value_congr (agree_left agree), right.value_congr (agree_right agree)]
  | .bitOr left right, agree => by
    unfold Expr.value
    rw [left.value_congr (agree_left agree), right.value_congr (agree_right agree)]
  | .both left right, agree => by
    unfold Expr.value
    rw [left.value_congr (agree_left agree), right.value_congr (agree_right agree)]
  | .equals left right, agree => by
    unfold Expr.value
    rw [left.value_congr (agree_left agree), right.value_congr (agree_right agree)]
  | .choose condition yes no, agree => by
    unfold Expr.value
    rw [condition.value_congr (agree_left agree),
      yes.value_congr (agree_left (agree_right agree)),
      no.value_congr (agree_right (agree_right agree))]
  | .paren inner, agree => by
    unfold Expr.value
    exact inner.value_congr agree
  | .concat parts, agree => by
    unfold Expr.value
    exact partsValue_congr parts agree
  | .replicate _ part, agree => by
    unfold Expr.value
    rw [part.value_congr agree]

/-- Parts read nothing but their nets. -/
theorem partsValue_congr : (parts : List Expr) →
    (∀ net ∈ partsNets parts, values.get net = others.get net) →
    partsValue widths values parts = partsValue widths others parts
  | [], _ => rfl
  | part :: rest, agree => by
    unfold partsValue
    rw [part.value_congr (agree_left agree), partsValue_congr rest (agree_right agree)]

end

end Agree

/-! ## Continuous assignments -/

/-- The net that an item assigns continuously, with the value it gets. -/
def Item.settled? (widths values : Nets) : Item → Option (String × Nat)
  | .parameter name value => some (name, value)
  | .assign target _ value =>
    some (target, value.value widths values &&& Bits.ones (widths.get target))
  | .declare net => net.value?.map fun value =>
    (net.name, value.value widths values &&& Bits.ones net.width)
  | .blank | .comment _ | .always _ _ => none

/-- The net that an item assigns continuously. -/
def Item.target? : Item → Option String
  | .parameter name _ => some name
  | .assign target _ _ => some target
  | .declare net => net.value?.map fun _ => net.name
  | .blank | .comment _ | .always _ _ => none

/-- The nets that an item's continuous assignment reads. -/
def Item.reads : Item → List String
  | .assign _ _ value => value.nets
  | .declare net => (net.value?.map Expr.nets).getD []
  | .blank | .comment _ | .parameter _ _ | .always _ _ => []

section Items

variable {widths values others : Nets} {item : Item} {net : String}

/-- Settling an item sets its target, if it has one. -/
theorem Item.settle_eq (item : Item) : item.settle widths values =
    match item.settled? widths values with
    | some (target, value) => values.set target value
    | none => values := by
  cases item with
  | declare net =>
    unfold Item.settle Item.settled?
    dsimp only
    cases net.value? <;> rfl
  | _ => rfl

theorem Item.target?_eq (item : Item) (widths values : Nets) :
    item.target? = (item.settled? widths values).map Prod.fst := by
  cases item with
  | declare net =>
    unfold Item.target? Item.settled?
    dsimp only
    cases net.value? <;> rfl
  | _ => rfl

/-- What an item settles to depends on the nets that it reads. -/
theorem Item.settled?_congr (agree : ∀ net ∈ item.reads, values.get net = others.get net) :
    item.settled? widths values = item.settled? widths others := by
  cases item with
  | assign target column value =>
    have same : value.value widths values = value.value widths others := value.value_congr agree
    unfold Item.settled?
    dsimp only
    rw [same]
  | declare net =>
    unfold Item.reads at agree
    unfold Item.settled?
    dsimp only at agree ⊢
    cases given : net.value? with
    | none => rfl
    | some value =>
      rw [given] at agree
      rw [Option.map_some, Option.map_some, value.value_congr agree]
  | _ => rfl

/-- Settling an item leaves other nets alone. -/
theorem Item.get_settle_of_ne (other : item.target? ≠ some net) :
    (item.settle widths values).get net = values.get net := by
  rw [item.target?_eq widths values] at other
  rw [item.settle_eq]
  cases assigned : item.settled? widths values with
  | none => rfl
  | some entry =>
    obtain ⟨target, value⟩ := entry
    rw [assigned] at other
    refine Nets.get_set_of_ne values value ?_
    intro same
    exact other (by rw [same]; rfl)

/-- A net that no item assigns keeps its value. -/
theorem get_settle_of_forall {items : List Item}
    (others : ∀ item ∈ items, item.target? ≠ some net) :
    (settle widths items values).get net = values.get net := by
  induction items generalizing values with
  | nil => rfl
  | cons first rest ih =>
    have onward : (settle widths rest (first.settle widths values)).get net =
        (first.settle widths values).get net :=
      ih fun item listed => others item (List.mem_cons_of_mem _ listed)
    exact onward.trans (Item.get_settle_of_ne (others first List.mem_cons_self))

/-! ## Items in order -/

/-- The later item does not assign what the earlier one reads or assigns. -/
def Item.Before (earlier later : Item) : Prop :=
  ∀ target, later.target? = some target →
    earlier.target? ≠ some target ∧ target ∉ earlier.reads

/-- Items in an order in which they settle: nothing is assigned after it was
read or assigned. -/
structure Ordered (items : List Item) : Prop where
  before : items.Pairwise Item.Before
  /-- No item reads what it assigns. -/
  apart : ∀ item ∈ items, ∀ target, item.target? = some target → target ∉ item.reads

/-- In the settled nets a continuous assignment holds as an equation. -/
theorem get_settle_of_mem {items : List Item} (ordered : Ordered items) (listed : item ∈ items)
    {value : Nat}
    (assigned : item.settled? widths (settle widths items values) = some (net, value)) :
    (settle widths items values).get net = value := by
  induction items generalizing values with
  | nil => cases listed
  | cons first rest ih =>
    obtain ⟨before, pairs⟩ := List.pairwise_cons.mp ordered.before
    have tail : Ordered rest :=
      ⟨pairs, fun other member => ordered.apart other (List.mem_cons_of_mem _ member)⟩
    rcases List.mem_cons.mp listed with rfl | behind
    · -- What the first item reads and assigns is left alone from then on.
      have target : item.target? = some net := by
        rw [item.target?_eq widths (settle widths (item :: rest) values), assigned]
        rfl
      have kept : ∀ other, other ∈ item.reads →
          (settle widths (item :: rest) values).get other = values.get other := by
        intro other read
        refine get_settle_of_forall ?_
        intro later member
        rcases List.mem_cons.mp member with rfl | member
        · intro own
          exact ordered.apart later List.mem_cons_self other own read
        · intro own
          exact (before later member other own).2 read
      rw [Item.settled?_congr kept] at assigned
      have step : item.settle widths values = values.set net value := by
        rw [item.settle_eq, assigned]
      have final : (settle widths rest (item.settle widths values)).get net =
          (item.settle widths values).get net := by
        refine get_settle_of_forall ?_
        intro later member own
        exact (before later member net own).1 target
      change (settle widths rest (item.settle widths values)).get net = value
      rw [final, step, Nets.get_set_self]
    · exact ih tail behind assigned

end Items

end RegisterBank.Verilog
