import LogRelay.CommandLine

/-!
# The program

Reads the frames of one writer from standard input, relays them under the configuration that the
environment gives, and prints the log.
-/

open LogRelay

/-- The value of an environment variable. -/
def environmentSetting (value : Option String) : Setting :=
  match value with
  | some s => .text s
  | none => .unset

/-- The configuration variables of the process. -/
def processEnvironment : IO Environment :=
  Environment.collect fun name => return environmentSetting (← IO.getEnv name)

/-- Runs the command. -/
def main : IO Unit := do
  let environment ← processEnvironment
  let input ← (← IO.getStdin).readBinToEnd
  let messages := (Wire.receive [input.data.toList]).1
  let dispatches := messages.map fun payload => Dispatch.payload ⟨payload.toArray⟩
  let setup : CommandLine.Setup :=
    { network := .loopback, unusedPort := 49152, environment := environment }
  IO.print (CommandLine.output setup dispatches)
