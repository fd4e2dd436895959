import CodeAtlas.Text.Numeral

/-!
Command lines with options and arguments. Long options may be shortened as far as they stay clear;
values follow an option or are joined to it; after two dashes nothing is an option.
-/
namespace CodeAtlas.CommandLine

variable {σ : Type}

/-- Why a command line is not carried out: help is asked for, or it is wrong. -/
inductive Stop where
  | help
  | usage
deriving DecidableEq, Repr

/-- What an option does to what has been read so far. An option with a value may be given none: two
dashes joined to it take the value away. -/
inductive Effect (σ : Type) where
  | flag (apply : σ → Except Stop σ)
  | value (apply : Option String → σ → Except Stop σ)

structure Rule (σ : Type) where
  names : List String
  effect : Effect σ

/-- The options of a command line, and what its argument does. The argument is one word, or one word
with everything behind it. -/
structure Grammar (σ : Type) where
  rules : List (Rule σ)
  argument : Option (Bool × (List String → σ → Except Stop σ))

def helpRule : Rule σ := ⟨["-h", "--help"], .flag fun _ => .error .help⟩

/-- A word of a command line. A text may be joined to an option, directly or behind an equals
sign. -/
inductive Word (σ : Type) where
  | plain (text : String)
  | separator
  | option (rule : Rule σ) (name : String) (joined : Option (List Char))
  | unknown (text : String)

def Grammar.names (g : Grammar σ) : List (String × Rule σ) :=
  g.rules.flatMap fun r => r.names.map fun name => (name, r)

def cutAtEquals (text : List Char) : Option (String × List Char) :=
  match text.dropWhile (· != '=') with
  | [] => none
  | _ :: value => some (String.ofList (text.takeWhile (· != '=')), value)

def isNegativeNumber (text : List Char) : Bool :=
  let text := if text.getLast? = some '\n' then text.dropLast else text
  let isDigit (c : Char) : Bool := (Text.digitValue? c).isSome
  match text with
  | '-' :: rest =>
    let places := rest.dropWhile isDigit
    match places with
    | [] => !rest.isEmpty
    | '.' :: places => !places.isEmpty && places.all isDigit
    | _ => false
  | _ => false

/-- The options that a word may be a shortened or joined form of. -/
def Grammar.candidates (g : Grammar σ) (text : String) : List (Word σ) :=
  let chars := text.toList
  match chars with
  | '-' :: '-' :: _ =>
    let (front, value) := match cutAtEquals chars with
      | some (front, value) => (front, some value)
      | none => (text, none)
    (g.names.filter fun n => front.toList.isPrefixOf n.1.toList).map fun n =>
      .option n.2 n.1 value
  | _ =>
    g.names.filterMap fun n =>
      if n.1.toList = chars.take 2 then some (.option n.2 n.1 (some (chars.drop 2)))
      else if chars.isPrefixOf n.1.toList then some (.option n.2 n.1 none)
      else none

def Grammar.wordOf (g : Grammar σ) (text : String) : Except Stop (Word σ) :=
  if text.toList.head? != some '-' then .ok (.plain text) else
  match g.names.lookup text with
  | some rule => .ok (.option rule text none)
  | none =>
    if text.length = 1 then .ok (.plain text) else
    match (cutAtEquals text.toList).bind fun cut =>
        (g.names.lookup cut.1).map fun rule => Word.option rule cut.1 (some cut.2) with
    | some word => .ok word
    | none =>
      match g.candidates text with
      | [word] => .ok word
      | _ :: _ => .error .usage
      | [] =>
        if isNegativeNumber text.toList || text.toList.contains ' ' then .ok (.plain text)
        else .ok (.unknown text)

/-- What the words of a command line are. A word that could be several options is an error before
anything else happens. -/
def Grammar.wordsOf (g : Grammar σ) : List String → Except Stop (List (Word σ × String))
  | [] => .ok []
  | "--" :: rest => .ok ((.separator, "--") :: rest.map fun text => (.plain text, text))
  | text :: rest => do
    let word ← g.wordOf text
    return (word, text) :: (← wordsOf g rest)

/-- What is to be done for an option: effects in order, and one that waits for the next word. -/
structure Demand (σ : Type) where
  effects : List (σ → Except Stop σ)
  waiting : Option (Option String → σ → Except Stop σ) := none

def Rule.demand (r : Rule σ) : Demand σ :=
  match r.effect with
  | .flag apply => { effects := [apply] }
  | .value apply => { effects := [], waiting := some apply }

def joinedValue (text : List Char) : Option String :=
  if text = ['-', '-'] then none else some (String.ofList text)

/-- An option with a text joined to it: its value, or the letters of more options behind one dash. A
letter that names no option is an error, and then nothing is done for the letters before it. -/
def Grammar.joined (g : Grammar σ) (short : Bool) (r : Rule σ) :
    List Char → Except Stop (Demand σ)
  | [] =>
    match r.effect with
    | .value apply => .ok { effects := [apply (joinedValue [])] }
    | .flag _ => .error .usage
  | c :: rest =>
    match r.effect with
    | .value apply => .ok { effects := [apply (joinedValue (c :: rest))] }
    | .flag apply =>
      if !short then .error .usage else
      match g.names.lookup (String.ofList ['-', c]) with
      | none => .error .usage
      | some next =>
        let more := if rest.isEmpty then .ok next.demand else joined g true next rest
        more.map fun d => { d with effects := apply :: d.effects }

def Grammar.demandOf (g : Grammar σ) (r : Rule σ) (name : String) (joined : Option (List Char)) :
    Except Stop (Demand σ) :=
  match joined with
  | none => .ok r.demand
  | some text => g.joined (name.toList.take 2 != ['-', '-']) r text

def applyAll (effects : List (σ → Except Stop σ)) (state : σ) : Except Stop σ :=
  effects.foldlM (fun state effect => effect state) state

/-- What has been read: the state, whether the argument has come, and whether words are left over. -/
structure Progress (σ : Type) where
  state : σ
  argumentRead : Bool := false
  leftOver : Bool := false

def Grammar.expected? (g : Grammar σ) (p : Progress σ) :
    Option (Bool × (List String → σ → Except Stop σ)) :=
  if p.argumentRead then none else g.argument

def dropSeparator : List (Word σ × String) → List (Word σ × String)
  | (.separator, _) :: rest => rest
  | words => words

theorem length_dropSeparator (words : List (Word σ × String)) :
    (dropSeparator words).length ≤ words.length := by
  unfold dropSeparator
  split <;> simp

def Grammar.read (g : Grammar σ) (p : Progress σ) :
    List (Word σ × String) → Except Stop (Progress σ)
  | [] => .ok p
  | (.option rule name text, _) :: rest => do
    let demand ← g.demandOf rule name text
    match demand.waiting, rest with
    | none, rest => read g { p with state := ← applyAll demand.effects p.state } rest
    | some apply, (.plain value, _) :: rest =>
      read g { p with state := ← applyAll (demand.effects ++ [apply (some value)]) p.state } rest
    | some _, _ => .error .usage
  | (.unknown _, _) :: rest => read g { p with leftOver := true } rest
  | (.plain text, _) :: rest =>
    match g.expected? p with
    | none => read g { p with leftOver := true } rest
    | some (false, apply) => do
      read g { p with state := ← apply [text] p.state, argumentRead := true } (dropSeparator rest)
    | some (true, apply) => do
      return { p with state := ← apply (text :: rest.map Prod.snd) p.state, argumentRead := true }
  | (.separator, _) :: rest =>
    match g.expected? p, rest with
    | some (false, apply), (.plain text, _) :: rest => do
      read g { p with state := ← apply [text] p.state, argumentRead := true } rest
    | some (true, _), _ :: _ => .error .usage
    | _, rest => read g { p with leftOver := true } rest
termination_by words => words.length
decreasing_by
  all_goals simp_wf
  all_goals try have := length_dropSeparator rest
  all_goals omega

/-- Reads a whole command line. Nothing may be left over, and the argument may not be missing. -/
def Grammar.parse (g : Grammar σ) (initial : σ) (words : List String) : Except Stop σ := do
  let p ← g.read { state := initial } (← g.wordsOf words)
  if p.leftOver || (g.argument.isSome && !p.argumentRead) then throw .usage
  return p.state

end CodeAtlas.CommandLine
