/-
# The program

Reads the files that the arguments name, runs the command and prints what it leaves behind.  Random
meshes are drawn with the congruential generator; another one gives other meshes for the same seeds.
-/

import MeshView.CommandLine.Run

namespace MeshView
namespace CommandLine

/-- The contents of a file, if it can be read. -/
def fileContents (path : String) : IO (Option ByteArray) := do
  try
    return some (← IO.FS.readBinFile path)
  catch _ =>
    return none

/-- Prints what the program leaves behind and returns the exit code. -/
def Outcome.print (outcome : Outcome) : IO UInt32 := do
  for line in outcome.out do
    IO.println line
  for line in outcome.err do
    IO.eprintln line
  return UInt32.ofNat outcome.exit

/-- Reads the arguments, then the files that they name, and runs the command. -/
def runProgram (args : List String) : IO UInt32 := do
  match read args with
  | .error stop => stop.outcome.print
  | .ok request =>
    let files ← request.files.mapM fun path => do return (path, ← fileContents path)
    let outcome := request.run .congruential fun path =>
      (files.find? fun f => f.1 == path).bind Prod.snd
    outcome.print

end CommandLine
end MeshView

def main (args : List String) : IO UInt32 := MeshView.CommandLine.runProgram args
