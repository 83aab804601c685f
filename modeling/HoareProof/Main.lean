import HoareProof.CommandLine.Run

namespace HoareProof
namespace CommandLine

/-!
The program.  It reads its arguments, puts the files that the command may look
at on a disk, runs the command, and carries out what the command leaves behind.
-/

/-- Puts what stands at a place of the file system on a disk. -/
def withPlace (disk : Disk) (place : Place) : IO Disk := do
  let here ← IO.currentDir
  let path := here / Disk.absoluteName place
  if ← path.isDir then return disk.insert place .directory
  else if ← path.pathExists then
    let content ← IO.FS.readBinFile path
    return disk.insert place (.bytes (content.toList.map (·.toNat)))
  else return disk

def snapshot (invocation : Invocation) : IO Disk := do
  let here ← IO.currentDir
  let working := (Disk.parts here.toString).filter fun part => !part.isEmpty
  let empty : Disk := ⟨working, []⟩
  (invocation.places empty).foldlM withPlace empty

/-- Prints the output of a command and writes its files. -/
def carryOut (before : Disk) (result : Result) : IO UInt32 := do
  for (place, content) in Disk.changes before result.disk do
    IO.FS.writeFile (Disk.absoluteName place) content
  IO.print result.output
  IO.eprint result.complaint
  return result.exitCode.toUInt32

def answerStop (stop : Stop) : IO UInt32 := do
  match stop with
  | .version => IO.print versionText
  | .rejected => IO.eprint usageText
  | _ => IO.print usageText
  return stop.exitCode.toUInt32

end CommandLine
end HoareProof

open HoareProof HoareProof.CommandLine in
def main (arguments : List String) : IO UInt32 := do
  match readArguments arguments with
  | .error stop => answerStop stop
  | .ok invocation =>
    let disk ← snapshot invocation
    let coloured ← (← IO.getStdout).isTty
    match run ⟨disk, none, coloured⟩ invocation with
    | .error fault =>
      IO.eprintln fault.message
      return 1
    | .ok result => carryOut disk result
