import GridOps.Bench.Run
import GridOps.Decimal.Shortest

/-!
The table that a benchmark writes: a header, and a row for every run of the join.

A cell without a value is empty.  Cells are separated by commas, and a cell that holds a comma, a
quote or the end of a line stands in quotes, with its own quotes written twice.
-/
namespace GridOps

/-- Times in nanoseconds, as far as they were taken. -/
structure Timing where
  build? : Option Nat
  estimate? : Option Nat
  probe? : Option Nat
  transpose? : Option Nat
  join? : Option Nat
  /-- The time that the memory of the relations, and their rows, took. -/
  memory? : Option Nat
  rows? : Option Nat
deriving DecidableEq, Repr

structure ReportHead where
  settings : Settings
  host : String
  workers : Nat
  capacity : Nat
  innerLen : Nat
  outerLen : Nat

namespace Report

/-- Decimals are written without an exponent below `10 ^ 16` and from `10 ^ -5` on. -/
def decimals : Decimal.Layout := ⟨-5, 16⟩

def number (n : Nat) : String := toString n

def truth (b : Bool) : String := if b then "true" else "false"

def optional {α : Type} (f : α → String) (a? : Option α) : String :=
  match a? with
  | some a => f a
  | none => ""

def time (nanoseconds : Nat) : String := decimals.text (Float.ofNat nanoseconds)

/-- The cells of a row, each behind the name of its column. -/
def cells (h : ReportHead) (warmUp : Bool) (m : Measurement) (t : Timing) :
    List (String × String) :=
  let s := h.settings
  let stats := m.statistics
  let exponent? := if s.distribution = .zipf then s.exponent? else none
  let bytes (rows : Nat) := number (rows * s.keyWidth.bytes)
  let memory? := if h.capacity = Device.maxBytes then none else some h.capacity
  let once (time? : Option Nat) := optional time (if warmUp then time? else none)
  [("data_set", Settings.dataSets.nameOf s.dataSet),
    ("hostname", h.host),
    ("device_workers", number h.workers),
    ("device_memory_bytes", optional number memory?),
    ("join_type", Settings.joinTypes.nameOf s.join.joinType),
    ("build_side", Settings.buildSides.nameOf s.join.buildSide),
    ("key_bytes", number s.keyWidth.bytes),
    ("occupancy_percent", number s.join.occupancy),
    ("block_size", number s.join.block.toNat),
    ("sample_threshold", number s.join.threshold),
    ("max_grow_retries", number s.join.maxRetries),
    ("data_distribution", Settings.distributions.nameOf s.distribution),
    ("zipf_exponent", optional decimals.text exponent?),
    ("selectivity", number s.selectivity),
    ("build_tuples", number h.innerLen),
    ("build_bytes", bytes h.innerLen),
    ("probe_tuples", number h.outerLen),
    ("probe_bytes", bytes h.outerLen),
    ("warm_up", truth warmUp),
    ("result_tuples", number m.rows),
    ("estimated_tuples", optional (number ·.rows) stats.estimate?),
    ("sample_tuples", optional (number ·.sample.len) stats.estimate?),
    ("sample_rounds", optional (number ·.rounds) stats.estimate?),
    ("grow_retries", number stats.retries),
    ("output_capacity", number stats.outputCapacity),
    ("hash_table_capacity", number stats.tableCapacity),
    ("flipped", truth stats.flipped),
    ("build_ns", optional time t.build?),
    ("estimate_ns", optional time t.estimate?),
    ("probe_ns", optional time t.probe?),
    ("transpose_ns", optional time t.transpose?),
    ("join_ns", optional time t.join?),
    ("relation_malloc_ns", once t.memory?),
    ("relation_gen_ns", once t.rows?)]

def rows (h : ReportHead) (runs : List (Measurement × Timing)) : List (List (String × String)) :=
  runs.zipIdx.map fun ((m, t), i) => cells h (i == 0) m t

def quoted (cell : String) : String :=
  let cs := cell.toList
  if cs.any fun c => c == ',' || c == '"' || c == '\n' || c == '\r' then
    String.ofList ('"' :: cs.flatMap (fun c => if c == '"' then [c, c] else [c]) ++ ['"'])
  else cell

def line (cells : List String) : String := String.intercalate "," (cells.map quoted) ++ "\n"

def table (rows : List (List (String × String))) : String :=
  match rows with
  | [] => ""
  | first :: _ =>
    String.join (line (first.map (·.1)) :: rows.map fun row => line (row.map (·.2)))

end Report
end GridOps
