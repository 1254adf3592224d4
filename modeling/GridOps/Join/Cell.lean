/-!
A memory cell that several threads read and change one step at a time.
-/
namespace GridOps

inductive CellStep (α : Type)
  | load
  | store (value : α)
  /-- Stores `new` if the cell holds `current`. -/
  | compareExchange (current new : α)
deriving DecidableEq, Repr

/-- What a step answers.  A compare-exchange answers the value before it. -/
inductive CellAnswer (α : Type)
  | loaded
  | stored
  | exchanged (old : α)
  | refused (old : α)
deriving DecidableEq, Repr

namespace CellStep

variable {α : Type} [DecidableEq α]

def apply (value : α) : CellStep α → CellAnswer α × α
  | load => (.loaded, value)
  | store new => (.stored, new)
  | compareExchange current new =>
    if value = current then (.exchanged value, new) else (.refused value, value)

end CellStep
end GridOps
