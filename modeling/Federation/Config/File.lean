import Federation.Config.Validation
import Federation.Text.Decimal
import Federation.Text.Split
import Federation.Toml.Reader
import Federation.Toml.Writer

/-!
# Configuration files

A configuration is read from a file; a missing file stands for the defaults. Environment variables
override what was read, and the result is checked.
-/

namespace Federation

inductive ConfigFile where
  | missing
  | unreadable (reason : String)
  | text (content : String)
  deriving DecidableEq, Repr

abbrev Environment := List (String × String)

namespace GardenConfig

def ofToml (content : String) : Except Failure GardenConfig :=
  match Toml.read? content with
  | none => .error (.configLoad "<toml>")
  | some table => (decoder .value table.toDocument).mapError fun _ => .configLoad "<toml>"

/-- The parts between commas, trimmed, without the empty ones. -/
def endpointsOf (text : String) : List String :=
  ((Text.splitAtEach ',' text.toList).map Text.trim).filterMap fun part =>
    if part.isEmpty then none else some (String.ofList part)

def portOf? (text : String) : Option Nat := Text.decimal? UInt16.size text

def overridingVariables : List String :=
  ["BG_GARDEN_NAME", "BG_BROKER_ENDPOINTS", "BG_BROKER_USERNAME", "BG_BROKER_PASSWORD",
    "BG_DATABASE_PATH", "BG_HTTP_PORT", "BG_LOG_LEVEL"]

/-- Where the file is when no path is given, if the user has a place for configurations; one that
is no absolute path does not count. -/
def defaultPath? (environment : Environment) : Option String :=
  let place := (environment.lookup "XDG_CONFIG_HOME").filter (·.startsWith "/")
  let home := (environment.lookup "HOME").filter (!·.isEmpty)
  (place <|> home.map (· ++ "/.config")).map (· ++ "/beer-garden/garden.toml")

/-- The configuration with one variable applied; a port that is none is ignored. -/
def override (config : GardenConfig) (name value : String) : GardenConfig :=
  match name with
  | "BG_GARDEN_NAME" => { config with garden.name := value }
  | "BG_BROKER_ENDPOINTS" => { config with broker.endpoints := endpointsOf value }
  | "BG_BROKER_USERNAME" => { config with broker.username := some value }
  | "BG_BROKER_PASSWORD" => { config with broker.password := some value }
  | "BG_DATABASE_PATH" => { config with database.path := some value }
  | "BG_HTTP_PORT" => { config with http.port := (portOf? value).getD config.http.port }
  | "BG_LOG_LEVEL" => { config with log.level := value }
  | _ => config

def read : ConfigFile → Except Failure GardenConfig
  | .missing => .ok {}
  | .unreadable reason => .error (.configLoad reason)
  | .text content => ofToml content

def load (file : ConfigFile) (environment : Environment) : Except Failure GardenConfig := do
  let config ← read file
  let config := environment.foldl (fun config v => config.override v.1 v.2) config
  config.validate
  .ok config

def save (config : GardenConfig) : Except Failure String :=
  (Toml.write config.toDocument).mapError .configSave

end GardenConfig

end Federation
