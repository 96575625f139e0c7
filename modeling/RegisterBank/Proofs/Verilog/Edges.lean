import RegisterBank.Verilog.Meaning

/-!
# Clock edges, net by net

A statement is a list of writes under conditions that only depend on the nets
before the edge.  So each net can be looked at on its own: `write?` is the last
value that a statement, an item or a list of items writes to it, and nothing if
it is not written.  Which nets may be written at all is decided without
values, by `targets`.
-/

namespace RegisterBank.Verilog

/-! ## Statements -/

mutual

/-- What a statement writes to a net at an edge, if it does. -/
def Stmt.write? (widths before : Nets) (net : String) : Stmt → Option Nat
  | .skip => none
  | .set target _ value =>
    if target = net then some (value.value widths before &&& Bits.ones (widths.get target))
    else none
  | .seq first second => (second.write? widths before net).or (first.write? widths before net)
  | .branch condition yes no =>
    if condition.value widths before != 0 then yes.write? widths before net
    else no.write? widths before net
  | .branchLine condition yes no =>
    if condition.value widths before != 0 then yes.write? widths before net
    else no.write? widths before net
  | .select subject arms => arms.write? widths before net (subject.value widths before)

/-- What the arm that a value selects writes to a net, if it does. -/
def Arms.write? (widths before : Nets) (net : String) (subject : Nat) : Arms → Option Nat
  | .otherwise body => body.write? widths before net
  | .arm label body rest =>
    if label.value widths before = subject then body.write? widths before net
    else rest.write? widths before net subject

end

mutual

/-- The nets that a statement may write. -/
def Stmt.targets : Stmt → List String
  | .skip => []
  | .set target _ _ => [target]
  | .seq first second => first.targets ++ second.targets
  | .branch _ yes no => yes.targets ++ no.targets
  | .branchLine _ yes no => yes.targets ++ no.targets
  | .select _ arms => arms.targets

/-- The nets that the arms of a selection may write. -/
def Arms.targets : Arms → List String
  | .otherwise body => body.targets
  | .arm _ body rest => body.targets ++ rest.targets

end

section Writes

variable {widths before : Nets} {net : String}

/-- The later write to a net wins. -/
theorem Stmt.write?_seq (first second : Stmt) :
    (Stmt.seq first second).write? widths before net =
      (second.write? widths before net).or (first.write? widths before net) :=
  rfl

theorem Stmt.write?_branch (condition : Expr) (yes no : Stmt) :
    (Stmt.branch condition yes no).write? widths before net =
      if condition.value widths before != 0 then yes.write? widths before net
      else no.write? widths before net :=
  rfl

/-- An assignment leaves other nets alone. -/
theorem Stmt.write?_set_of_ne {target : String} (other : target ≠ net) (column : Nat)
    (value : Expr) : (Stmt.set target column value).write? widths before net = none :=
  if_neg other

mutual

/-- What a net holds after a statement is what was written to it last, and else
what it held. -/
theorem Stmt.get_apply : (stmt : Stmt) → (after : Nets) →
    (stmt.apply widths before after).get net =
      (stmt.write? widths before net).getD (after.get net)
  | .skip, after => rfl
  | .set target _ value, after => by
    unfold Stmt.apply Stmt.write?
    by_cases same : target = net
    · rw [if_pos same, same, Nets.get_set_self]
      rfl
    · rw [if_neg same, Nets.get_set_of_ne _ _ same]
      rfl
  | .seq first second, after => by
    unfold Stmt.apply Stmt.write?
    rw [second.get_apply, first.get_apply]
    cases second.write? widths before net <;> rfl
  | .branch condition yes no, after => by
    unfold Stmt.apply Stmt.write?
    split
    · exact yes.get_apply after
    · exact no.get_apply after
  | .branchLine condition yes no, after => by
    unfold Stmt.apply Stmt.write?
    split
    · exact yes.get_apply after
    · exact no.get_apply after
  | .select subject arms, after => by
    unfold Stmt.apply Stmt.write?
    exact arms.get_apply (subject.value widths before) after

theorem Arms.get_apply : (arms : Arms) → (subject : Nat) → (after : Nets) →
    (arms.apply widths before subject after).get net =
      (arms.write? widths before net subject).getD (after.get net)
  | .otherwise body, subject, after => by
    unfold Arms.apply Arms.write?
    exact body.get_apply after
  | .arm label body rest, subject, after => by
    unfold Arms.apply Arms.write?
    split
    · exact body.get_apply after
    · exact rest.get_apply subject after

end

mutual

/-- Statements write to nothing but their targets. -/
theorem Stmt.write?_eq_none : (stmt : Stmt) → net ∉ stmt.targets →
    stmt.write? widths before net = none
  | .skip, _ => rfl
  | .set target _ value, other => by
    unfold Stmt.write?
    rw [if_neg]
    intro same
    exact other (by rw [same]; exact List.mem_singleton_self net)
  | .seq first second, other => by
    unfold Stmt.targets at other
    rw [List.mem_append, not_or] at other
    unfold Stmt.write?
    rw [second.write?_eq_none other.2, first.write?_eq_none other.1]
    rfl
  | .branch condition yes no, other => by
    unfold Stmt.targets at other
    rw [List.mem_append, not_or] at other
    unfold Stmt.write?
    rw [yes.write?_eq_none other.1, no.write?_eq_none other.2, ite_self]
  | .branchLine condition yes no, other => by
    unfold Stmt.targets at other
    rw [List.mem_append, not_or] at other
    unfold Stmt.write?
    rw [yes.write?_eq_none other.1, no.write?_eq_none other.2, ite_self]
  | .select subject arms, other => by
    unfold Stmt.write?
    exact arms.write?_eq_none (subject.value widths before) other

theorem Arms.write?_eq_none : (arms : Arms) → (subject : Nat) → net ∉ arms.targets →
    arms.write? widths before net subject = none
  | .otherwise body, subject, other => by
    unfold Arms.write?
    exact body.write?_eq_none other
  | .arm label body rest, subject, other => by
    unfold Arms.targets at other
    rw [List.mem_append, not_or] at other
    unfold Arms.write?
    rw [body.write?_eq_none other.1, rest.write?_eq_none subject other.2, ite_self]

end

/-! ## Items -/

/-- What an item writes to a net at an edge, if it does. -/
def Item.write? (widths before : Nets) (net : String) : Item → Option Nat
  | .always _ body => body.write? widths before net
  | .blank | .comment _ | .parameter _ _ | .declare _ | .assign _ _ _ => none

/-- The nets that an item may write at an edge. -/
def Item.writes : Item → List String
  | .always _ body => body.targets
  | .blank | .comment _ | .parameter _ _ | .declare _ | .assign _ _ _ => []

/-- Whether an item runs on clock edges. -/
def Item.isClocked : Item → Bool
  | .always _ _ => true
  | .blank | .comment _ | .parameter _ _ | .declare _ | .assign _ _ _ => false

/-- What the last of some items that writes to a net writes. -/
def itemsWrite? (widths before : Nets) (net : String) : List Item → Option Nat
  | [] => none
  | item :: rest => (itemsWrite? widths before net rest).or (item.write? widths before net)

/-- An item at an edge does to a net what its write says. -/
theorem Item.get_edge (item : Item) (after : Nets) :
    (item.edge widths before after).get net =
      (item.write? widths before net).getD (after.get net) := by
  cases item with
  | always sensitivity body => exact body.get_apply after
  | _ => rfl

theorem Item.write?_eq_none {item : Item} (other : net ∉ item.writes) :
    item.write? widths before net = none := by
  cases item with
  | always sensitivity body => exact body.write?_eq_none other
  | _ => rfl

/-- After an edge a net has what the items write to it, or what it had. -/
theorem get_edge (items : List Item) (settled : Nets) :
    (edge widths items settled).get net =
      (itemsWrite? widths settled net items).getD (settled.get net) := by
  have general : ∀ after : Nets,
      (items.foldl (Item.edge widths settled) after).get net =
        (itemsWrite? widths settled net items).getD (after.get net) := by
    induction items with
    | nil => exact fun after => rfl
    | cons item rest ih =>
      intro after
      rw [List.foldl_cons, ih, item.get_edge]
      show _ = ((itemsWrite? widths settled net rest).or (item.write? widths settled net)).getD _
      cases itemsWrite? widths settled net rest <;> rfl
  exact general settled

theorem itemsWrite?_append (items others : List Item) :
    itemsWrite? widths before net (items ++ others) =
      (itemsWrite? widths before net others).or (itemsWrite? widths before net items) := by
  induction items with
  | nil => exact (Option.or_none).symm
  | cons item rest ih =>
    rw [List.cons_append, itemsWrite?, itemsWrite?, ih, Option.or_assoc]

/-- Only clocked blocks write at an edge. -/
theorem itemsWrite?_filter (items : List Item) :
    itemsWrite? widths before net items =
      itemsWrite? widths before net (items.filter Item.isClocked) := by
  induction items with
  | nil => rfl
  | cons item rest ih =>
    cases item with
    | always sensitivity body =>
      rw [List.filter_cons_of_pos rfl, itemsWrite?, itemsWrite?, ih]
    | _ =>
      rw [List.filter_cons_of_neg Bool.false_ne_true, itemsWrite?, ih]
      exact Option.or_none

/-- A net that no item writes to is not written. -/
theorem itemsWrite?_eq_none {items : List Item}
    (others : ∀ item ∈ items, net ∉ item.writes) :
    itemsWrite? widths before net items = none := by
  induction items with
  | nil => rfl
  | cons item rest ih =>
    unfold itemsWrite?
    rw [ih fun other listed => others other (List.mem_cons_of_mem _ listed),
      Item.write?_eq_none (others item List.mem_cons_self)]
    rfl

/-- If the items of one element alone may write to a net, they are the only ones
that do. -/
theorem itemsWrite?_flatMap {α : Type} {elements : List α} {items : α → List Item} {element : α}
    (others : ∀ other ∈ elements, other ≠ element → ∀ item ∈ items other, net ∉ item.writes) :
    itemsWrite? widths before net (elements.flatMap items) = none ∨
      itemsWrite? widths before net (elements.flatMap items) =
        itemsWrite? widths before net (items element) := by
  induction elements with
  | nil => exact Or.inl rfl
  | cons first rest ih =>
    have either := ih fun other listed => others other (List.mem_cons_of_mem _ listed)
    rw [List.flatMap_cons, itemsWrite?_append]
    by_cases own : first = element
    · rw [own]
      rcases either with none | same
      · rw [none, Option.none_or]
        exact Or.inr rfl
      · rw [same, Option.or_self]
        exact Or.inr rfl
    · rw [itemsWrite?_eq_none (others first List.mem_cons_self own), Option.or_none]
      exact either

/-- Where one element alone writes to a net, its items are all that counts. -/
theorem itemsWrite?_flatMap_of_mem {α : Type} {elements : List α} {items : α → List Item}
    {element : α} (listed : element ∈ elements)
    (others : ∀ other ∈ elements, other ≠ element → ∀ item ∈ items other, net ∉ item.writes) :
    itemsWrite? widths before net (elements.flatMap items) =
      itemsWrite? widths before net (items element) := by
  -- An element may be listed twice, so both halves can hold the one that writes.
  induction elements with
  | nil => cases listed
  | cons first rest ih =>
    have tail := fun other member => others other (List.mem_cons_of_mem first member)
    rw [List.flatMap_cons, itemsWrite?_append]
    by_cases own : first = element
    · rw [own]
      rcases itemsWrite?_flatMap tail with none | same
      · rw [none, Option.none_or]
      · rw [same, Option.or_self]
    · rcases List.mem_cons.mp listed with same | behind
      · exact absurd same.symm own
      · rw [itemsWrite?_eq_none (others first List.mem_cons_self own), Option.or_none,
          ih behind tail]

end Writes

end RegisterBank.Verilog
