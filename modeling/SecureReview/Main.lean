import SecureReview.CommandLine.Dispatch
import SecureReview.World.Reader
/-!
# The program

The command line, run in a world whose description is read from standard input as JSON. Without a
description the world is empty: there are no files and no tools.
-/

namespace SecureReview

/-- The world of a description; a text that is no description is an empty one. -/
def describedWorld (text : String) : World :=
  match Json.parseString text with
  | .ok v => World.ofJson v
  | .error _ => {}

/-- What the program prints and its exit code. -/
def respond (args : List String) (description : String) : CommandLine.Reply :=
  match ((CommandLine.run args).run.run (describedWorld description)).1 with
  | .ok reply => reply
  | .error e => ⟨e.message ++ "\n", 1⟩

end SecureReview

/-- Run the command line. -/
def main (args : List String) : IO UInt32 := do
  let description ← (← IO.getStdin).readToEnd
  let reply := SecureReview.respond args description
  (← IO.getStdout).putStr reply.output
  return reply.code.toUInt32
