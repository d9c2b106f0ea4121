import Cadence.Error

/-!
# Descriptors
-/

namespace Cadence

abbrev PollId := Int

def InvalidFd : PollId := -1

/-- An `ISelectable*` at the time of a call: where it points, and what `getSelectId` answers. -/
structure ISelectable (Data : Type) where
  address : Data
  getSelectId : PollId

end Cadence
