import VirtualMemory.Demo

/-!
# The command line

Runs the demonstration, with a seed from the host, and shows its notices.
-/

open VirtualMemory

/-- The number that bytes spell, high byte first. -/
def seedOfBytes (bytes : List UInt8) : UInt64 :=
  bytes.foldl (fun n b => n * 256 + b.toUInt64) 0

def main : IO UInt32 := do
  let entropy ← IO.getRandomBytes 8
  let outcome := Demo.run (fun _ => .writable) (seedOfBytes entropy.toList) ()
  for notice in outcome.notices do
    IO.eprintln notice.line
  return if Op.value outcome then 0 else 1
