import CodeAtlas.CommandLine.Grammar
import CodeAtlas.Settings
import CodeAtlas.Text.Numeral

/-!
The commands of the program and their command lines.
-/
namespace CodeAtlas.CommandLine

structure AnalyzeOptions where
  path : String := ""
  summary : Bool := false

structure RenderOptions where
  path : String := ""
  output : Option String := some "architecture.svg"
  mode : Option ViewMode := some .both
  width : Option Int
  height : Option Int
  maxTicks : Option Int

structure ServeOptions where
  host : Option String := some "127.0.0.1"
  port : Option Int := some 8000
  reload : Bool := false

inductive Command where
  | analyze (options : AnalyzeOptions)
  | render (options : RenderOptions)
  | serve (options : ServeOptions)

structure Invocation where
  verbose : Bool := false
  command : Option Command := none

variable {σ : Type}

/-- A value that a text is read as; a text that is not read is wrong usage. -/
def readValue {α : Type} (read : String → Option α) (apply : Option α → σ → σ) : Effect σ :=
  .value fun text state =>
    match text with
    | none => .ok (apply none state)
    | some text =>
      match read text with
      | some a => .ok (apply (some a) state)
      | none => .error .usage

def integerValue (apply : Option Int → σ → σ) : Effect σ :=
  readValue (fun text => (Text.integer? text).toOption) apply

def textValue (apply : Option String → σ → σ) : Effect σ := readValue some apply

def switch (apply : σ → σ) : Effect σ := .flag fun state => .ok (apply state)

def wordArgument (apply : String → σ → σ) : Option (Bool × (List String → σ → Except Stop σ)) :=
  some (false, fun words state => .ok (apply (words.headD "") state))

def analyzeGrammar : Grammar AnalyzeOptions where
  rules := [helpRule, ⟨["--summary"], switch fun o => { o with summary := true }⟩]
  argument := wordArgument fun path o => { o with path }

def renderGrammar : Grammar RenderOptions where
  rules := [helpRule,
    ⟨["-o", "--output"], textValue fun output o => { o with output }⟩,
    ⟨["--mode"], readValue ViewMode.ofName? fun mode o => { o with mode }⟩,
    ⟨["--width"], integerValue fun width o => { o with width }⟩,
    ⟨["--height"], integerValue fun height o => { o with height }⟩,
    ⟨["--max-ticks"], integerValue fun maxTicks o => { o with maxTicks }⟩]
  argument := wordArgument fun path o => { o with path }

def serveGrammar : Grammar ServeOptions where
  rules := [helpRule,
    ⟨["--host"], textValue fun host o => { o with host }⟩,
    ⟨["--port"], integerValue fun port o => { o with port }⟩,
    ⟨["--reload"], switch fun o => { o with reload := true }⟩]
  argument := none

def commandOf (settings : Settings) : List String → Except Stop Command
  | "analyze" :: words => (analyzeGrammar.parse {} words).map .analyze
  | "render" :: words =>
    let initial : RenderOptions :=
      { width := some settings.canvasWidth, height := some settings.canvasHeight
        maxTicks := some settings.maxTicks }
    (renderGrammar.parse initial words).map .render
  | "serve" :: words => (serveGrammar.parse {} words).map .serve
  | _ => .error .usage

def mainGrammar (settings : Settings) : Grammar Invocation where
  rules := [helpRule, ⟨["-v", "--verbose"], switch fun i => { i with verbose := true }⟩]
  argument := some (true, fun words i => do
    return { i with command := some (← commandOf settings words) })

def parse (settings : Settings) (words : List String) : Except Stop Invocation :=
  (mainGrammar settings).parse {} words

end CodeAtlas.CommandLine
