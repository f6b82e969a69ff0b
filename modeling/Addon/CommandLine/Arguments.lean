import Addon.Text.Quoted
import Addon.Text.Split
import Addon.Unicode.Digit

/-!
# Arguments

Reads the arguments of the command line. Options may be shortened as long as they stay unique, and
an option that takes a value takes it from the next argument or from behind an equals sign. After a
lone `--` nothing is an option any more. The one argument that is no option names the project.
-/

namespace Addon.CommandLine

inductive Switch where
  | help
  | dev
  | minify
  | lang
  | source
deriving DecidableEq, Repr

namespace Switch

/-- The spellings of the options. -/
def spellings : List (String × Switch) :=
  [("-h", .help), ("--help", .help), ("--dev", .dev), ("--minify", .minify), ("--lang", .lang),
    ("--source", .source)]

/-- The option with a spelling. -/
def ofSpelling? (text : String) : Option Switch :=
  (spellings.find? fun s => s.1 = text).map (·.2)

def takesValue : Switch → Bool
  | .lang | .source => true
  | _ => false

/-- The option in messages. -/
def label : Switch → String
  | .help => "-h/--help"
  | .dev => "--dev"
  | .minify => "--minify"
  | .lang => "--lang"
  | .source => "--source"

end Switch

/-- What was given on the command line. A value that was given as `--` counts as none. -/
structure Arguments where
  project : String := "."
  dev : Bool := false
  minify : Bool := false
  langs : List (Option String) := []
  sources : List (Option String) := []
deriving DecidableEq, Repr

/-- Why reading stops before all arguments are used. -/
inductive Stop where
  /-- Help is asked for. -/
  | help
  | ambiguous (option : String) (matching : List String)
  | unusedValue (switch : Switch) (value : String)
  | missingValue (switch : Switch)
  | unrecognized (arguments : List String)
deriving DecidableEq, Repr

/-- What an argument is by itself. -/
inductive Word where
  | argument (text : String)
  /-- The lone `--`. -/
  | separator
  /-- An option as it was spelled, with the value behind its equals sign. -/
  | option (switch : Switch) (spelling : String) (value : Option String)
  /-- What looks like an option and is none. -/
  | unknown (text : String)

namespace Word

def isOption : Word → Bool
  | .option .. | .unknown _ => true
  | _ => false

/-- The argument as it was given. -/
def text : Word → String
  | .argument text | .unknown text => text
  | .separator => "--"
  | .option _ spelling _ => spelling

end Word

/-- An argument up to its first equals sign and what stands behind that. -/
def splitValue (cs : List Char) : List Char × Option String :=
  let before := cs.takeWhile (· ≠ '=')
  match cs.drop before.length with
  | [] => (before, none)
  | _ :: after => (before, some (String.ofList after))

/-- Digits of any script. -/
def areDigits (cs : List Char) : Bool :=
  cs.all fun c => (Unicode.decimalDigit? c).isSome

/-- A text without a line feed at its end. -/
def dropFinalNewline (cs : List Char) : List Char :=
  if cs.getLast? = some '\n' then cs.dropLast else cs

/-- A negative number. -/
def isNegativeNumber (cs : List Char) : Bool :=
  match dropFinalNewline cs with
  | '-' :: rest =>
    match Text.splitOn '.' rest with
    | [digits] => !digits.isEmpty && areDigits digits
    | [whole, digits] => areDigits whole && !digits.isEmpty && areDigits digits
    | _ => false
  | _ => false

/-- The options that an argument with two dashes can be short for. -/
def longMatches (cs : List Char) : List Word :=
  let (before, value) := splitValue cs
  Switch.spellings.filterMap fun s =>
    if before.isPrefixOf s.1.toList then some (.option s.2 s.1 value) else none

/-- The options that an argument with one dash can be: a letter with its value right behind it. -/
def shortMatches (cs : List Char) : List Word :=
  Switch.spellings.filterMap fun s =>
    if s.1.toList = cs.take 2 then some (.option s.2 s.1 (some (String.ofList (cs.drop 2))))
    else if cs.isPrefixOf s.1.toList then some (.option s.2 s.1 none)
    else none

/-- The options that an argument can be meant for. -/
def candidates (cs : List Char) : List Word :=
  match cs with
  | '-' :: '-' :: _ => longMatches cs
  | _ => shortMatches cs

/-- An argument that is no exact spelling of an option. -/
def readInexact (text : String) : Except Stop Word :=
  let cs := text.toList
  let (before, value) := splitValue cs
  match value, Switch.ofSpelling? (String.ofList before) with
  | some value, some switch => .ok (.option switch (String.ofList before) (some value))
  | _, _ =>
    match candidates cs with
    | [word] => .ok word
    | [] =>
      if isNegativeNumber cs || cs.contains ' ' then .ok (.argument text) else .ok (.unknown text)
    | words => .error (.ambiguous text (words.map Word.text))

/-- What an argument is. -/
def readWord (text : String) : Except Stop Word :=
  match text.toList with
  | '-' :: _ :: _ =>
    match Switch.ofSpelling? text with
    | some switch => .ok (.option switch text none)
    | none => readInexact text
  | _ => .ok (.argument text)

/-- What the arguments are. -/
def readWords : List String → Except Stop (List (String × Word))
  | [] => .ok []
  | "--" :: rest => .ok (("--", .separator) :: rest.map fun text => (text, .argument text))
  | text :: rest => do
    let word ← readWord text
    let words ← readWords rest
    return (text, word) :: words

/-- Takes an option without a value. -/
def Arguments.take (a : Arguments) : Switch → Except Stop Arguments
  | .help => .error .help
  | .dev => .ok { a with dev := true }
  | .minify => .ok { a with minify := true }
  | .lang | .source => .ok a

/-- Takes an option with a value. -/
def Arguments.takeValue (a : Arguments) (switch : Switch) (value : String) : Arguments :=
  let value := if value = "--" then none else some value
  match switch with
  | .lang => { a with langs := a.langs ++ [value] }
  | .source => { a with sources := a.sources ++ [value] }
  | _ => a

/-- Letters that stand right behind a letter option: each has to be such an option. -/
def readLetters (a : Arguments) (switch : Switch) : List Char → Except Stop Arguments
  | [] => a.take switch
  | c :: rest =>
    match Switch.ofSpelling? (String.ofList ['-', c]) with
    | some next => readLetters a next rest
    | none => .error (.unusedValue switch (String.ofList (c :: rest)))

/-- Reading in progress. -/
structure State where
  arguments : Arguments := {}
  /-- Whether the project was looked for already. -/
  projectDone : Bool := false
  extras : List String := []

/-- The words that the project takes up: an argument, with separators on its sides. -/
def projectWords (words : List (String × Word)) : List (String × Word) :=
  let isSeparator := fun (w : String × Word) => match w.2 with
    | .separator => true
    | _ => false
  let before := words.takeWhile isSeparator
  match words.drop before.length with
  | (text, .argument a) :: rest => before ++ (text, .argument a) :: rest.takeWhile isSeparator
  | _ => before

/-- The argument among some words. -/
def argumentIn? (words : List (String × Word)) : Option String :=
  words.findSome? fun w => match w.2 with
    | .argument text => some text
    | _ => none

/-- Takes the project from the front of some words. Gives the words behind it. -/
def takeProject (s : State) (words : List (String × Word)) : State × List (String × Word) :=
  if s.projectDone then (s, words)
  else
    let taken := projectWords words
    let arguments := match argumentIn? taken with
      | some text => { s.arguments with project := text }
      | none => s.arguments
    ({ s with arguments := arguments, projectDone := true }, words.drop taken.length)

/-- Takes words that are no options, before an option. -/
def takePlain (s : State) (words : List (String × Word)) : State :=
  if words.isEmpty then s
  else
    let (s, rest) := takeProject s words
    { s with extras := s.extras ++ rest.map (·.1) }

/-- Takes an option. Gives the number of words that it takes up behind itself. -/
def takeOption (s : State) (text : String) (word : Word) (next : Option (String × Word)) :
    Except Stop (State × Nat) :=
  match word with
  | .option switch spelling (some value) =>
    if switch.takesValue then .ok ({ s with arguments := s.arguments.takeValue switch value }, 0)
    else if spelling.length = 2 && value ≠ "" then do
      let a ← readLetters s.arguments switch value.toList
      return ({ s with arguments := a }, 0)
    else .error (.unusedValue switch value)
  | .option switch _ none =>
    if switch.takesValue then
      match next with
      | some (_, .argument value) =>
        .ok ({ s with arguments := s.arguments.takeValue switch value }, 1)
      | _ => .error (.missingValue switch)
    else do
      let a ← s.arguments.take switch
      return ({ s with arguments := a }, 0)
  | _ => .ok ({ s with extras := s.extras ++ [text] }, 0)

/-- Takes words. `plain` holds the words since the last option. -/
def takeWords (s : State) (plain : List (String × Word)) (skip : Nat) :
    List (String × Word) → Except Stop State
  | [] =>
    let (s, rest) := takeProject s plain
    .ok { s with extras := s.extras ++ rest.map (·.1) }
  | (text, word) :: rest =>
    match skip with
    | n + 1 => takeWords s plain n rest
    | 0 =>
      if word.isOption then do
        let s := takePlain s plain
        let (s, used) ← takeOption s text word rest.head?
        takeWords s [] used rest
      else takeWords s (plain ++ [(text, word)]) 0 rest

/-- Reads the arguments of the command line. -/
def parse (argv : List String) : Except Stop Arguments := do
  let words ← readWords argv
  let s ← takeWords {} [] 0 words
  if s.extras.isEmpty then return s.arguments else throw (.unrecognized s.extras)

/-- The name of the tool. -/
def toolName : String := "acebuild"

/-- How the tool is called. -/
def usage : String :=
  s!"usage: {toolName} [-h] [--dev] [--minify] [--lang TAG] [--source FILE] [project]\n"

/-- What the tool can do. -/
def helpText : String :=
  usage ++ "\n".intercalate
    ["",
      "Compile annotated addon sources into ACE descriptors, localization files and",
      "an annotation-free runtime script.",
      "",
      "positional arguments:",
      "  project        Addon project directory (contains src/addon_config.py).",
      "",
      "options:",
      "  -h, --help     show this help message and exit",
      "  --dev          Development build: skip packaging the export into a .c3addon",
      "                 archive.",
      "  --minify       Re-emit compiled scripts without comments and blank lines.",
      "  --lang TAG     Language tag to emit a localization file for (repeatable,",
      "                 default en-US).",
      "  --source FILE  Annotated source module relative to src/ (repeatable, default",
      "                 instance.py).",
      ""]

/-- What is wrong with the arguments. -/
def Stop.message : Stop → String
  | .help => ""
  | .ambiguous option matching =>
    s!"ambiguous option: {option} could match " ++ ", ".intercalate matching
  | .unusedValue switch value =>
    s!"argument {switch.label}: ignored explicit argument " ++ Text.quoted value
  | .missingValue switch => s!"argument {switch.label}: expected one argument"
  | .unrecognized arguments => "unrecognized arguments: " ++ " ".intercalate arguments

/-- What the tool writes when reading stops. -/
def Stop.report (stop : Stop) : String :=
  usage ++ toolName ++ ": error: " ++ stop.message ++ "\n"

end Addon.CommandLine
