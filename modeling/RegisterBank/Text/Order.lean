/-!
# The order of texts

Texts are ordered by the codes of their characters, a text before those that it
starts.  The bytes that encode the texts have the same order.
-/

namespace RegisterBank.Text

/-- Characters in order. -/
def orderChars : List Char → List Char → Ordering
  | [], [] => .eq
  | [], _ :: _ => .lt
  | _ :: _, [] => .gt
  | first :: rest, second :: others =>
    if first.toNat < second.toNat then .lt
    else if second.toNat < first.toNat then .gt
    else orderChars rest others

/-- Texts in order. -/
def order (first second : String) : Ordering := orderChars first.toList second.toList

end RegisterBank.Text
