/-!
# Reset styles

How the flip-flops of a generated bank are reset: with the clock or on their
own, by a high or by a low level.
-/

namespace RegisterBank

/-- Reset style of the generated flip-flops. -/
inductive ResetStyle where
  | syncPositive
  | syncNegative
  | asyncPositive
  | asyncNegative
  deriving DecidableEq, Repr

namespace ResetStyle

/-- Every style, in the order in which the choices are listed. -/
def all : List ResetStyle := [syncPositive, syncNegative, asyncPositive, asyncNegative]

/-- The word a document uses for the style. -/
def word : ResetStyle → String
  | .syncPositive => "sync_pos"
  | .syncNegative => "sync_neg"
  | .asyncPositive => "async_pos"
  | .asyncNegative => "async_neg"

/-- The style a document names. -/
def ofWord? (word : String) : Option ResetStyle := all.find? fun style => style.word == word

/-- Whether a low level resets. -/
def isActiveLow : ResetStyle → Bool
  | .syncPositive | .asyncPositive => false
  | .syncNegative | .asyncNegative => true

/-- Whether the reset acts without the clock. -/
def isAsync : ResetStyle → Bool
  | .syncPositive | .syncNegative => false
  | .asyncPositive | .asyncNegative => true

/-- The reset port. -/
def port (style : ResetStyle) : String := if style.isActiveLow then "rst_n" else "rst"

/-- The events on which a clocked block runs. -/
def sensitivity (style : ResetStyle) : String :=
  if style.isAsync then
    if style.isActiveLow then "@(posedge clk or negedge rst_n)"
    else "@(posedge clk or posedge rst)"
  else "@(posedge clk)"

/-- The condition under which the reset holds. -/
def active (style : ResetStyle) : String := if style.isActiveLow then "!rst_n" else "rst"

end ResetStyle

end RegisterBank
