import PrefixCalc.CommandLine.Output

/-!
# The program

The only place where something is read or written.  The bytes that the command line asks for are
read in full, and the answer is computed from them at once.
-/

namespace PrefixCalc
namespace CommandLine

/-- All bytes that are left in a stream. -/
partial def readRest (stream : IO.FS.Stream) (before : ByteArray) : IO ByteArray := do
  let chunk ← stream.read 65536
  if chunk.isEmpty then return before else readRest stream (before ++ chunk)

/-- The bytes of a file, if it can be read. -/
def readFile? (path : String) : IO (Option ByteArray) := do
  try
    return some (← IO.FS.readBinFile path)
  catch _ =>
    return none

/-- Answers the command line. -/
def answer (arguments : List String) : IO Output := do
  match Request.ofArguments arguments with
  | .error halt => return halt.output .standard arguments
  | .ok request =>
    match request.source with
    | .argument _ => return request.output (fun _ => none) .empty
    | .file path =>
      let content ← readFile? path
      return request.output (fun _ => content) .empty
    | .standard => return request.output (fun _ => none) (← readRest (← IO.getStdin) .empty)

end CommandLine
end PrefixCalc

/-- Runs the program. -/
def main (arguments : List String) : IO UInt32 := do
  let output ← PrefixCalc.CommandLine.answer arguments
  IO.print output.stdout
  IO.eprint output.stderr
  return output.exitCode.toUInt32
