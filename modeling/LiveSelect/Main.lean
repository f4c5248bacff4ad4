import LiveSelect.Command.Run

/-! # The command

Reads files, the environment and the arguments, and writes the answer. -/

namespace LiveSelect

/-- Looks up a path in the file system. -/
def fileSystem : Files IO := fun path => do
  try return .text (← IO.FS.readFile path)
  catch e =>
    match e with
    | .noFileOrDirectory .. => return .missing
    | e => return .unreadable (toString e)

end LiveSelect

open LiveSelect in
def main (args : List String) : IO UInt32 := do
  let variableValue ← IO.getEnv Settings.variableName
  let answer ← Command.run fileSystem variableValue args
  IO.print answer.output
  IO.eprint answer.complaint
  return answer.exit.toUInt32
