import Federation.Config.File

/-!
# The command line

Given the path of a configuration, or none for the default one, the program loads it under the
variables of its environment, checks it and prints the settings in effect. A configuration that is
refused is reported with the reason, and the exit code is 1.
-/

namespace Federation.CommandLine

def environment (names : List String) : IO Environment :=
  names.filterMapM fun name => do
    return (← IO.getEnv name).map fun value => (name, value)

def configFile (path : String) : IO ConfigFile := do
  try
    return .text (← IO.FS.readFile path)
  catch
    | .noFileOrDirectory .. => return .missing
    | .inappropriateType _ code details | .permissionDenied _ code details =>
      return .unreadable s!"{details} (os error {code})"
    | e => return .unreadable (toString e)

def report (doing : String) (failure : Failure) : String :=
  "Error: " ++ doing ++ "\n\nCaused by:\n    " ++ failure.message

def settings (args : List String) : IO (Except String String) := do
  let places ← environment ["XDG_CONFIG_HOME", "HOME"]
  let file ← match args.head? <|> GardenConfig.defaultPath? places with
    | some path => configFile path
    | none => pure .missing
  let overrides ← environment GardenConfig.overridingVariables
  return do
    let config ← (GardenConfig.load file overrides).mapError (report "loading configuration")
    config.save.mapError (report "printing configuration")

end Federation.CommandLine

def main (args : List String) : IO UInt32 := do
  match ← Federation.CommandLine.settings args with
  | .ok text =>
    IO.print text
    return 0
  | .error text =>
    IO.eprintln text
    return 1
