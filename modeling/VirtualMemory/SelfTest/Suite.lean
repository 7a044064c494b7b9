import VirtualMemory.Op

/-!
# Test suites

A test case is a name and an operation that answers a verdict. A check is an operation whose
failure is the verdict of its case; `expect` and `require` report what went wrong.
-/

namespace VirtualMemory

inductive Verdict
  | passed
  | failed
  | skipped
  deriving DecidableEq, Repr

namespace Verdict

def name : Verdict → String
  | passed => "Passed"
  | failed => "Failed"
  | skipped => "Skipped"

def ofName? (name : String) : Option Verdict :=
  [passed, failed, skipped].find? (·.name == name)

theorem ofName?_name (v : Verdict) : ofName? v.name = some v := by cases v <;> rfl

end Verdict

structure TestCase where
  name : String
  run : Op Unit Empty Verdict

structure SuiteReport where
  passed : Nat := 0
  failed : Nat := 0
  skipped : Nat := 0
  deriving DecidableEq

def SuiteReport.ok (r : SuiteReport) : Bool := r.failed == 0

def SuiteReport.add (r : SuiteReport) : Verdict → SuiteReport
  | .passed => { r with passed := r.passed + 1 }
  | .failed => { r with failed := r.failed + 1 }
  | .skipped => { r with skipped := r.skipped + 1 }

namespace TestCase

def verdictNotice (name : String) : Verdict → Notice
  | .passed => .report .ok name []
  | .failed => .report .failure name []
  | .skipped => .report .warning ("[SKIP] " ++ name) []

def runAll (report : SuiteReport) : List TestCase → Op Unit Empty SuiteReport
  | [] => return report
  | test :: rest => do
    let verdict ← test.run
    Op.notify (verdictNotice test.name verdict)
    runAll (report.add verdict) rest

def runSuite (name : String) (tests : List TestCase) : Op Unit Empty SuiteReport := do
  Op.notify (.report .info ("=== Executando suite: " ++ name) [])
  let report ← runAll {} tests
  Op.notify (.report .info "Resultados: passed/failed=" [report.passed, report.failed])
  return report

end TestCase

/-- An operation whose failure is a verdict. -/
abbrev Check (σ α : Type) : Type := Op σ Verdict α

namespace Check

variable {σ τ α : Type}

/-- Fails the case, with a line and values, unless the condition holds. -/
def expectWith (condition : Bool) (text : String) (values : List Nat) : Check σ Unit := do
  if !condition then
    Op.notify (.report .error text values)
    throw .failed

def expect (condition : Bool) (text : String) : Check σ Unit := expectWith condition text []

/-- Fails the case, with a line and the name of the cause, if the operation fails. -/
def require (x : Op σ MemoryError α) (text : String) : Check σ α := do
  match ← Op.attempt x with
  | .ok a => return a
  | .error e =>
    Op.notify (.report .error text [])
    Op.notify (.report .error e.name [])
    throw .failed

def errorOf (x : Op σ MemoryError α) : Check σ (Option MemoryError) := do
  match ← Op.attempt x with
  | .ok _ => return none
  | .error e => return some e

def toCase (name : String) (build : Check Unit τ) (check : Check τ Unit) : TestCase where
  name := name
  run := do
    match ← Op.attempt (build >>= fun t => (Op.apart t check : Check Unit (Unit × τ))) with
    | .ok _ => return .passed
    | .error verdict => return verdict

end Check

end VirtualMemory
