import TaggedValues.Command

/-!
# Entry point

Runs `Command.invoke` on the real arguments, standard input, files and log variable, and writes what
it gives: the output to the standard output, everything else to the standard error.
-/

open TaggedValues

/-- The content that the options name, or `none` if it cannot be read. Nothing is read when the
options do not ask for it. -/
def readContent (arguments : List String) : IO (Option ByteArray) :=
  match Options.ofArguments arguments with
  | .error _ => return none
  | .ok options =>
    match options.image with
    | none => return some (← (← IO.getStdin).readBinToEnd)
    | some path =>
      try return some (← IO.FS.readBinFile path)
      catch _ => return none

/-- Runs the command. -/
def main (args : List String) : IO UInt32 := do
  let arguments := "tagword" :: args
  let content ← readContent arguments
  let outcome := Command.invoke none arguments
    { input := content.getD .empty
      file? := fun _ => content
      logVariable := ← IO.getEnv "RUST_LOG" }
  let out ← IO.getStdout
  out.write outcome.output
  out.flush
  for event in outcome.log do
    IO.eprintln event.line
  for fault in outcome.reports do
    IO.eprintln (fault.code ++ ": " ++ fault.message)
  if let some text := outcome.complaint then
    IO.eprintln text
  return UInt32.ofNat outcome.code
