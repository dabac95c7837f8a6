import Tabletop.Report

/-!
# Command line

Each argument is a formula to be rolled.
-/

namespace Tabletop

/-- Eight bytes make a seed. -/
def seedOfBytes (bytes : ByteArray) : UInt64 :=
  bytes.toList.foldl (fun seed b => seed <<< 8 ||| b.toUInt64) 0

def printReport (arguments : List String) : IO UInt32 := do
  let seed := seedOfBytes (← IO.getRandomBytes 8)
  let output := Report.output ((Report.ofArguments arguments).result { supply := .seeded seed }).1
  IO.print output.text
  return output.exitCode

end Tabletop

def main (arguments : List String) : IO UInt32 :=
  Tabletop.printReport arguments
