import CodeAtlas.Diagram.Basic
import CodeAtlas.Text.Casing
import CodeAtlas.Text.Numeral

/-!
The settings of the program and where they come from: variables of the environment, each with a
value of its own for when it is not set.
-/
namespace CodeAtlas

structure Settings where
  logLevel : String := "INFO"
  logDir : Option String := none
  maxConcurrentReads : Int := 32
  ignoreDirs : List String := [".git", "node_modules", "dist", "build", "__pycache__"]
  canvasWidth : Int := 800
  canvasHeight : Int := 600
  linkDistance : Float := 120.0
  chargeStrength : Float := -400.0
  collideRadius : Float := 30.0
  tickInterval : Float := 1.0 / 60.0
  maxTicks : Int := 1000

/-- Why the environment gives no settings, and why settings cannot be used. -/
inductive SettingsError where
  | badInteger (text : String)
  | longInteger (digits : Nat)
  | badFloat (text : String)
  | badLogLevel (level : String)
  | tooFewReads
  | badCanvas
  | negativeRadius
  | negativeInterval
deriving DecidableEq, Repr

def SettingsError.shownLength : Nat := 200

def SettingsError.message : SettingsError → String
  | badInteger text => "invalid literal for int() with base 10: " ++
      String.ofList ((Text.quoted text).toList.take shownLength)
  | longInteger digits => "Exceeds the limit (" ++ toString Text.digitLimit ++
      " digits) for integer string conversion: value has " ++ toString digits ++
      " digits; use sys.set_int_max_str_digits() to increase the limit"
  | badFloat text => "could not convert string to float: " ++ Text.quoted text
  | badLogLevel level => "Invalid ARCHMAP_LOG_LEVEL: " ++ level
  | tooFewReads => "ARCHMAP_MAX_CONCURRENT_READS must be at least 1"
  | badCanvas => "Canvas dimensions must be positive"
  | negativeRadius => "ARCHMAP_COLLIDE_RADIUS must not be negative"
  | negativeInterval => "ARCHMAP_TICK_INTERVAL must not be negative"

abbrev Environment := List (String × String)

namespace Environment

def given? (env : Environment) (name : String) : Option String :=
  (env.lookup name).filter (· != "")

def integer (env : Environment) (name : String) (default : Int) : Except SettingsError Int :=
  match env.given? name with
  | none => .ok default
  | some text =>
    match Text.integer? text with
    | .ok n => .ok n
    | .error .malformed => .error (.badInteger text)
    | .error (.tooLong digits) => .error (.longInteger digits)

def float (env : Environment) (name : String) (default : Float) : Except SettingsError Float :=
  match env.given? name with
  | none => .ok default
  | some text => ((Text.float? text).map .ok).getD (.error (.badFloat text))

/-- The parts between commas without the blanks around them; empty parts are left out. -/
def listed (env : Environment) (name : String) (default : List String) : List String :=
  match env.given? name with
  | none => default
  | some text =>
    ((Text.splitOn ',' text.toList).map fun part => Text.strip (String.ofList part)).filter
      (· != "")

end Environment

namespace Settings

/-- The settings of an environment. An empty log level is a level of its own. -/
def ofEnvironment (env : Environment) : Except SettingsError Settings := do
  let defaults : Settings := {}
  let maxConcurrentReads ←
    env.integer "ARCHMAP_MAX_CONCURRENT_READS" defaults.maxConcurrentReads
  let canvasWidth ← env.integer "ARCHMAP_CANVAS_WIDTH" defaults.canvasWidth
  let canvasHeight ← env.integer "ARCHMAP_CANVAS_HEIGHT" defaults.canvasHeight
  let linkDistance ← env.float "ARCHMAP_LINK_DISTANCE" defaults.linkDistance
  let chargeStrength ← env.float "ARCHMAP_CHARGE_STRENGTH" defaults.chargeStrength
  let collideRadius ← env.float "ARCHMAP_COLLIDE_RADIUS" defaults.collideRadius
  let tickInterval ← env.float "ARCHMAP_TICK_INTERVAL" defaults.tickInterval
  let maxTicks ← env.integer "ARCHMAP_MAX_TICKS" defaults.maxTicks
  return {
    logLevel := Text.upper ((env.lookup "ARCHMAP_LOG_LEVEL").getD defaults.logLevel)
    logDir := env.given? "ARCHMAP_LOG_DIR"
    ignoreDirs := env.listed "ARCHMAP_IGNORE_DIRS" defaults.ignoreDirs
    maxConcurrentReads, canvasWidth, canvasHeight, linkDistance, chargeStrength, collideRadius
    tickInterval, maxTicks }

def logLevels : List String := ["DEBUG", "INFO", "WARNING", "ERROR", "CRITICAL"]

def validate (s : Settings) : Except SettingsError Unit :=
  if !logLevels.contains s.logLevel then .error (.badLogLevel s.logLevel)
  else if s.maxConcurrentReads < 1 then .error .tooFewReads
  else if s.canvasWidth ≤ 0 || s.canvasHeight ≤ 0 then .error .badCanvas
  else if s.collideRadius < 0 then .error .negativeRadius
  else if s.tickInterval < 0 then .error .negativeInterval
  else .ok ()

def diagramOptions (s : Settings) : DiagramOptions Float where
  width := s.canvasWidth
  height := s.canvasHeight
  distance := s.linkDistance
  charge := s.chargeStrength
  radius := s.collideRadius
  tickLimit := s.maxTicks

end Settings

end CodeAtlas
