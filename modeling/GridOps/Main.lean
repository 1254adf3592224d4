import GridOps.Bench.Options
import GridOps.Bench.Report

/-!
The benchmark program: runs the join that its arguments describe, and writes what the runs gave to
a file.
-/
namespace GridOps
namespace Main

def stop {α : Type} (message : String) : IO α := throw (IO.userError message)

def orStop {ε α : Type} (message : ε → String) (r : Except ε α) : IO α :=
  match r with
  | .ok a => return a
  | .error e => stop (message e)

def benchText (e : BenchError) : String := (e.message?.getD "A relation file cannot be read")

def seed : IO UInt64 := do
  return (← IO.getRandomBytes 8).toList.foldl (fun n b => n * 256 + b.toUInt64) 0

def hostName : IO String := do
  try return (← IO.FS.readFile "/etc/hostname").trimAscii.toString
  catch _ => return "localhost"

def contents (path : String) : IO Contents := do
  return Contents.ofFile path (← IO.FS.readBinFile path).toList

def relations (K : Type) [JoinKey K] (s : Settings) : IO (RelationPair K) := do
  match s.innerFile?, s.outerFile? with
  | some inner, some outer =>
    let pair := RelationPair.ofContents (← contents inner) (← contents outer)
    orStop (benchText ∘ BenchError.file) pair
  | _, _ => orStop benchText (s.generate K (PairDraws.ofSeed (← seed)))

def timed {K : Type} [JoinKey K] (j : HashJoin) (p : RelationPair K) (device : IO.Ref Device) :
    IO (Measurement × Nat) := do
  let start ← IO.monoNanosNow
  match p.measure j (← device.get) with
  | .ok m d =>
    device.set d
    return (m, (← IO.monoNanosNow) - start)
  | .error e _ => stop e.message

def run (K : Type) [JoinKey K] (s : Settings) : IO Unit := do
  let device ← orStop benchText s.device
  let join ← orStop benchText s.hashJoin
  let start ← IO.monoNanosNow
  let pair ← relations K s
  let rowTime := (← IO.monoNanosNow) - start
  let head : ReportHead :=
    ⟨s, ← hostName, device.workers, device.capacity, pair.inner.size, pair.outer.size⟩
  let state ← IO.mkRef device
  let mut runs := #[]
  for _ in [0:s.repetitions + 1] do
    let (m, time) ← timed join pair state
    runs := runs.push (m, (⟨none, none, none, none, some time, some 0, some rowTime⟩ : Timing))
  match s.csv? with
  | some path => IO.FS.writeFile path (Report.table (Report.rows head runs.toList))
  | none => pure ()

end Main
end GridOps

def main (args : List String) : IO UInt32 := do
  match GridOps.Settings.ofArguments args with
  | .error e =>
    IO.eprintln e.message
    return 1
  | .ok s =>
    try
      match s.keyWidth with
      | .four => GridOps.Main.run Int32 s
      | .eight => GridOps.Main.run Int64 s
      return 0
    catch e =>
      IO.eprintln e.toString
      return 1
