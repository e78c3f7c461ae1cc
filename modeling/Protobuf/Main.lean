import Protobuf.CommandLine.Program

/-! # The command line

What the program asks for is answered from the disk; all else is decided by `start`. -/

open Protobuf.CommandLine

/-- Run to the end, answering questions about files from the disk. -/
def Protobuf.CommandLine.Run.perform : Run → IO UInt32
  | .finish outcome => do
    (← IO.getStdout).putStr outcome.output
    (← IO.getStderr).putStr outcome.errors
    return outcome.code.toUInt32
  | .read path next => do
    let data ←
      try
        let data ← IO.FS.readBinFile path
        pure (some data.data.toList)
      catch _ => pure none
    (next data).perform
  | .write path text next => do
    let written ←
      try
        IO.FS.writeFile path text
        pure true
      catch _ => pure false
    (next written).perform

/-- Check, plan, emit or decode, as the arguments ask. -/
def main (arguments : List String) : IO UInt32 :=
  (start arguments).perform
