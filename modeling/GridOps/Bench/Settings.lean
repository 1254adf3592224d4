import GridOps.Join.HashJoin

/-!
What a benchmark is asked to run.
-/
namespace GridOps

abbrev Choices (α : Type) := List (String × α)

namespace Choices

def names {α : Type} (c : Choices α) : List String := c.map (·.1)

def nameOf {α : Type} [DecidableEq α] (c : Choices α) (a : α) : String :=
  match c.find? (·.2 == a) with
  | some (name, _) => name
  | none => ""

end Choices

inductive DataSet
  | blanas
  | kim
  /-- A thousand rows on each side. -/
  | test
  /-- Relations of any length. -/
  | custom
  | skewedTail
deriving DecidableEq, Repr

inductive Distribution
  | uniform
  | zipf
deriving DecidableEq, Repr

inductive KeyWidth
  | four
  | eight
deriving DecidableEq, Repr

namespace KeyWidth

def bytes : KeyWidth → Nat
  | four => 4
  | eight => 8

end KeyWidth

/-- Everything that the options of a benchmark say. -/
structure Settings where
  repetitions : Nat
  csv? : Option String
  join : JoinOptions
  dataSet : DataSet
  distribution : Distribution
  exponent? : Option Float
  selectivity : Nat
  innerFile? : Option String
  outerFile? : Option String
  keyWidth : KeyWidth
  innerLen? : Option Nat
  outerLen? : Option Nat
  ordinal : UInt16
  memory? : Option Nat
  workers : Nat

namespace Settings

def dataSets : Choices DataSet :=
  [("Blanas", .blanas), ("Kim", .kim), ("Test", .test), ("Custom", .custom),
    ("PrefixSkew", .skewedTail)]

def distributions : Choices Distribution := [("Uniform", .uniform), ("Zipf", .zipf)]

def joinTypes : Choices JoinType := [("Inner", .inner), ("Left", .left)]

def buildSides : Choices BuildSide := [("Smaller", .smaller), ("Right", .right)]

def keyWidths : Choices KeyWidth := [("Bytes4", .four), ("Bytes8", .eight)]

end Settings
end GridOps
