import GridOps.Bench.Settings
import GridOps.CommandLine.Options
import GridOps.Decimal.Numeral
import GridOps.Text.Numeral

/-!
The options of the benchmark program, and the settings that they give.
-/
namespace GridOps
namespace Settings

/-! ## Checks -/

/-- A word of `bits` bits. -/
def checkWord (bits : Nat) (cs : List Char) : Except String Unit := do
  let _ ← (Numeral.word bits cs).mapError NumeralError.message

def checkFloat (cs : List Char) : Except String Unit := do
  let _ ← (Decimal.parse cs).mapError Decimal.NumeralError.message

/-- A percentage from 0 to 100, as a signed integer. -/
def checkSelectivity (cs : List Char) : Except String Unit :=
  match Numeral.parse KeyType.i32.lowest KeyType.i32.largest 10 cs with
  | .error _ =>
    .error "Failed to parse integer. The value must be a percentage between [0, 100]."
  | .ok n =>
    if 0 ≤ n ∧ n ≤ 100 then .ok () else .error "The value must be a percentage between [0, 100]."

/-- A percentage from 1 to 100. -/
def checkOccupancy (cs : List Char) : Except String Unit :=
  match Numeral.word 32 cs with
  | .ok n =>
    if 0 < n ∧ n ≤ 100 then .ok ()
    else .error "The occupancy must be a percentage between [1, 100]."
  | .error _ => .error "The occupancy must be a percentage between [1, 100]."

/-! ## Options -/

def word (bits : Nat) : ValueRule := .checked (checkWord bits)

def options : List OptionSpec :=
  [⟨"repeat", some 'r', some "30", word 32⟩,
    ⟨"csv", none, none, .anything⟩,
    ⟨"join-type", none, some "Inner", .oneOf joinTypes.names⟩,
    ⟨"build-side", none, some "Smaller", .oneOf buildSides.names⟩,
    ⟨"occupancy", none, some "50", .checked checkOccupancy⟩,
    ⟨"block-size", none, some "128", word 32⟩,
    ⟨"sample-threshold", none, some "5", word 64⟩,
    ⟨"max-grow-retries", none, some "16", word 32⟩,
    ⟨"max-output-tuples", none, none, word 64⟩,
    ⟨"data-set", some 's', some "Test", .oneOf dataSets.names⟩,
    ⟨"data-distribution", none, some "Uniform", .oneOf distributions.names⟩,
    ⟨"zipf-exponent", none, none, .checked checkFloat⟩,
    ⟨"selectivity", none, some "100", .checked checkSelectivity⟩,
    ⟨"inner-rel-file", none, none, .anything⟩,
    ⟨"outer-rel-file", none, none, .anything⟩,
    ⟨"key-bytes", none, some "Bytes4", .oneOf keyWidths.names⟩,
    ⟨"inner-rel-tuples", none, none, word 64⟩,
    ⟨"outer-rel-tuples", none, none, word 64⟩,
    ⟨"device-id", some 'i', some "0", word 16⟩,
    ⟨"device-memory-bytes", none, none, word 64⟩,
    ⟨"threads", some 't', some "0", word 64⟩]

/-! ## Values -/

def read {α : Type} (values : List (String × String)) (read? : List Char → Option α)
    (name : String) : Except UsageError (Option α) :=
  match values.lookup name with
  | none => .ok none
  | some text =>
    match read? text.toList with
    | some a => .ok (some a)
    | none => .error (.unreadable name)

def require {α : Type} (name : String) (read : String → Except UsageError (Option α)) :
    Except UsageError α := do
  match ← read name with
  | some a => return a
  | none => throw (.noValue name)

def choice? {α : Type} (c : Choices α) (cs : List Char) : Option α :=
  (c.find? fun (name, _) => CommandLine.sameName (String.ofList cs) name).map (·.2)

def ofValues (values : List (String × String)) : Except UsageError Settings := do
  let word (bits : Nat) := read values fun cs => (Numeral.word bits cs).toOption
  let float := read values fun cs => (Decimal.parse cs).toOption
  let text := read values fun cs => some (String.ofList cs)
  let choice {α : Type} (c : Choices α) := read values (choice? c)
  return {
    repetitions := ← require "repeat" (word 32)
    csv? := ← text "csv"
    join :=
      { joinType := ← require "join-type" (choice joinTypes)
        buildSide := ← require "build-side" (choice buildSides)
        occupancy := ← require "occupancy" (word 32)
        block := UInt32.ofNat (← require "block-size" (word 32))
        threshold := ← require "sample-threshold" (word 64)
        maxRetries := ← require "max-grow-retries" (word 32)
        maxRows? := ← word 64 "max-output-tuples" }
    dataSet := ← require "data-set" (choice dataSets)
    distribution := ← require "data-distribution" (choice distributions)
    exponent? := ← float "zipf-exponent"
    selectivity := ← require "selectivity" (word 32)
    innerFile? := ← text "inner-rel-file"
    outerFile? := ← text "outer-rel-file"
    keyWidth := ← require "key-bytes" (choice keyWidths)
    innerLen? := ← word 64 "inner-rel-tuples"
    outerLen? := ← word 64 "outer-rel-tuples"
    ordinal := UInt16.ofNat (← require "device-id" (word 16))
    memory? := ← word 64 "device-memory-bytes"
    workers := ← require "threads" (word 64) }

def ofArguments (args : List String) : Except UsageError Settings := do
  ofValues (← CommandLine.values options args)

end Settings
end GridOps
