import VirtualMemory.SelfTest.Concurrency
import VirtualMemory.SelfTest.Context
import VirtualMemory.SelfTest.Frames
import VirtualMemory.SelfTest.Swap
import VirtualMemory.SelfTest.Table

/-!
# All self tests
-/

namespace VirtualMemory.SelfTest

def suites : List (String × List TestCase) :=
  [ ("table", tableTests),
    ("pmm", framesTests),
    ("swap", swapTests),
    ("fault", faultTests),
    ("context", contextTests),
    ("process", processTests),
    ("concurrency", concurrencyTests) ]

def runAll : Op Unit Empty Bool := do
  let reports ← suites.mapM fun (name, tests) => TestCase.runSuite name tests
  return reports.all (·.ok)

end VirtualMemory.SelfTest
