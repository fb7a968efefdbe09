import TravelDocument.Tool.Run

/-!
# The command

Reads the command line, the environment and the configuration file, and runs the tool. No smart card
service is attached to this executable, so every run that gets as far as needing one reports that.
-/

namespace TravelDocument.Tool

/-- The variables that settings are taken from. -/
def variableNames : List String :=
  ["MRTD_READER_INDEX", "MRTD_LOG_LEVEL", "MRTD_SESSION__MAX_READ_LENGTH",
    "MRTD_SESSION__EXTENDED_LENGTH", "MRTD_SESSION__CERTIFICATE_BLOCK_SIZE",
    "MRTD_SESSION__MAC_CHECK"]

/-- The variables that are set. -/
def readEnvironment : IO (List (String × String)) :=
  variableNames.filterMapM fun name => do
    return (← IO.getEnv name).map fun value => (name, value)

/-- The contents of a file together with its name, if it can be read. -/
def readFile? (name : String) : IO (Option (String × String)) :=
  try
    return some (name, ← IO.FS.readFile name)
  catch _ => return none

/-- The configuration files that may be asked for. -/
def candidateFiles (config : Option String) : List String :=
  let name := config.getD defaultConfigName
  [name, name ++ configEnding]

def absentService : Service (List Bytes) :=
  ⟨.error .noService, .error .noService, fun _ => .error .noService, Card.replay⟩

/-- Prints a report, failures to the standard error; the exit code says which of the two it is. -/
def printReport (report : Report (List Bytes)) : IO UInt32 := do
  for line in report.printed do
    IO.println line
  match report.failure with
  | none => return 0
  | some failure =>
    for line in failure.report do
      IO.eprintln line
    return 1

end TravelDocument.Tool

open TravelDocument.Tool in
def main (arguments : List String) : IO UInt32 := do
  match Arguments.parse? arguments with
  | none =>
    IO.eprintln "invalid command line"
    return 2
  | some parsed =>
    let files ← (candidateFiles parsed.config).filterMapM readFile?
    let sources : Sources := ⟨fun name => files.lookup name, ← readEnvironment⟩
    printReport (run sources absentService [] parsed)
