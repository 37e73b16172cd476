import Leasework.CommandLine.Options
import Leasework.Host.Settings
import Leasework.Json.Text
import Leasework.Text.Numeral

/-!
# `Leasework.Main`: checks the settings of a host

The program loads the settings file of a host as the host would, and writes the completed
settings as JSON. Whatever keeps the host from starting is written as an error instead.
-/

set_option autoImplicit false

namespace Leasework.CommandLine

/-- The variable that names the settings file when no option does. -/
def fileVariable : String := "WORKER_CONFIG"

/-- The options of the program. -/
def checkSpecs : List Spec :=
  [⟨"config", fun _ => true⟩, ⟨"concurrency", fun s => (Text.word64 s).toOption.isSome⟩]

/-- The path of the settings file. -/
def settingsPath (given : List (String × String)) (vars : Host.Variables) : String :=
  ((given.lookup "config").or (vars.text? fileVariable)).getD "worker.toml"

/-- The settings with the number of consumers that the command line asks for. -/
def withConcurrency (given : List (String × String)) (s : Host.Settings) : Host.Settings :=
  match (given.lookup "concurrency").bind fun n => (Text.word64 n).toOption with
  | some n => { s with crew := { s.crew with concurrency := n } }
  | none => s

/-- What the program writes for the content of the settings file, and whether all is well. -/
def checked (given : List (String × String)) (vars : Host.Variables) (path : String)
    (content : Option (List UInt8)) : Except String String :=
  match Host.Deployment.ofVariables vars with
  | .error u => .error u.message
  | .ok deployment =>
    match Host.Settings.ofFile deployment vars path content with
    | .error f => .error f.message
    | .ok s => .ok (Json.render (withConcurrency given s).toDocument)

/-- The variables that the program looks at. -/
def variableNames : List String := ["APP_ENV", "SQS_ENDPOINT", "REDIS_URL", fileVariable]

/-- The variables that are set. -/
def readVariables : IO Host.Variables := do
  let found ← variableNames.mapM fun name => do
    return (← IO.getEnv name).map fun value => (name, Text.encode value)
  return found.filterMap id

/-- The bytes of a file, if it can be read. -/
def fileContent (path : String) : IO (Option (List UInt8)) := do
  try
    return some (← IO.FS.readBinFile path).toList
  catch _ => return none

end Leasework.CommandLine

open Leasework CommandLine

/-- Checks the settings file that the command line names. -/
def main (args : List String) : IO UInt32 := do
  match CommandLine.read checkSpecs args with
  | .error _ =>
    IO.eprintln "usage: leasework [--config FILE] [--concurrency NUMBER]"
    return 2
  | .ok given =>
    let vars ← readVariables
    let path := settingsPath given vars
    match checked given vars path (← fileContent path) with
    | .ok text =>
      IO.println text
      return 0
    | .error text =>
      IO.eprintln text
      return 1
