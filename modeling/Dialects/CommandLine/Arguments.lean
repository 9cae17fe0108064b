import Dialects.Text.Numeral
import Dialects.Text.Quoted

/-!
# Arguments of the command line

The command line takes a path and options. A long option may be shortened as long as only one begins
so, and its value may follow an equals sign; short options that take no value may be put together.
Two dashes end the options. Of an option that is given more than once the last one counts.

`--help` and `--version` take effect where they stand: what follows them is not looked at. Whether
every word can be told apart is decided before that.
-/

namespace Dialects.CommandLine

/-- The dialect to which a file is converted. -/
inductive Target where
  /-- The lenient dialect. -/
  | lenient
  /-- The canonical dialect. -/
  | canonical
  deriving DecidableEq, Repr

/-- What the command line asks for. -/
structure Arguments where
  /-- The path of the file. -/
  path : String
  /-- The dialect to which it is converted. -/
  target : Target
  /-- The tag of its language, if it is not guessed. -/
  language : Option String
  /-- Whether the result is stored in the file. -/
  write : Bool
  /-- The path of a configuration file. -/
  config : Option String
  /-- Whether the program tells what it does. -/
  verbose : Bool
  deriving DecidableEq, Repr

/-- Why there is nothing to convert. -/
inductive Stop where
  /-- Help is asked for. -/
  | help
  /-- The version is asked for. -/
  | version
  /-- The words are not those of a command line. -/
  | misuse (message : String)
  deriving DecidableEq, Repr

/-- An option that takes no value. -/
inductive Flag where
  /-- Asks for help. -/
  | help
  /-- Asks for the version. -/
  | version
  /-- Stores the result in the file. -/
  | write
  /-- Tells what is done. -/
  | verbose
  deriving DecidableEq, Repr

/-- An option that takes a value. -/
inductive Setting where
  /-- The dialect. -/
  | target
  /-- The language. -/
  | language
  /-- The configuration file. -/
  | config
  deriving DecidableEq, Repr

/-- An option. -/
inductive Choice where
  /-- One that takes no value. -/
  | flag (f : Flag)
  /-- One that takes a value. -/
  | setting (s : Setting)
  deriving DecidableEq, Repr

/-- The spellings of the options, in the order in which they are listed. -/
def spellings : List (String × Choice) :=
  [("-h", .flag .help), ("--help", .flag .help), ("--to", .setting .target),
    ("--language", .setting .language), ("--write", .flag .write), ("--config", .setting .config),
    ("-v", .flag .verbose), ("--verbose", .flag .verbose), ("--version", .flag .version)]

/-- The option with a spelling. -/
def choice? (spelling : List Char) : Option Choice := spellings.lookup (String.ofList spelling)

/-- The name of an option in messages: its spellings. -/
def Choice.name (c : Choice) : String :=
  "/".intercalate ((spellings.filter fun s => s.2 = c).map Prod.fst)

/-- The values among which an option chooses, if it does. -/
def Setting.values : Setting → Option (List String)
  | .target => some ["lenient", "canonical"]
  | .language => some ["js", "json"]
  | .config => none

/-- A text that is attached to an option. -/
structure Attached where
  /-- Whether an equals sign stands before it. -/
  afterEquals : Bool
  /-- The text. -/
  text : List Char
  deriving DecidableEq, Repr

/-- What a word of the command line is. -/
inductive Word where
  /-- The path, or the value of an option. -/
  | plain (text : String)
  /-- The two dashes that end the options. -/
  | divider
  /-- An option, whether it has a short spelling, and what is attached to it. -/
  | option (c : Choice) (short : Bool) (attached : Option Attached)
  /-- Something that looks like an option but is none. -/
  | unknown (text : String)
  deriving DecidableEq, Repr

/-- What stands before the first equals sign, and after it if there is one. -/
def splitEquals (w : List Char) : List Char × Option Attached :=
  let name := w.takeWhile (· ≠ '=')
  match w.drop name.length with
  | [] => (name, none)
  | _ :: text => (name, some ⟨true, text⟩)

/-- Whether a word is a negative number, perhaps with a line feed at its end. -/
def isNegativeNumber (w : List Char) : Bool :=
  let digits (t : List Char) : Bool := t.all fun c => (CodePoint.scalar c).isDecimal
  let w := if w.getLast? = some '\n' then w.dropLast else w
  match w with
  | '-' :: t =>
    let fraction := t.dropWhile (· ≠ '.')
    if fraction = [] then t ≠ [] && digits t
    else digits (t.takeWhile (· ≠ '.')) && fraction.length > 1 && digits (fraction.drop 1)
  | _ => false

/-- The options that a word with dashes, which is no full spelling, may mean: with their
spellings. -/
def candidates (w : List Char) : List (String × Word) :=
  match w with
  | '-' :: '-' :: _ =>
    let (name, attached) := splitEquals w
    (spellings.filter fun s => name.isPrefixOf s.1.toList).map fun (s, c) =>
      (s, .option c false attached)
  | a :: b :: rest =>
    match choice? [a, b] with
    | some c => [(String.ofList [a, b], .option c true (some ⟨false, rest⟩))]
    | none => []
  | _ => []

/-- What a word with a dash at its start is. -/
def dashed (w : List Char) : Except Stop Word :=
  let text := String.ofList w
  let isShort (spelling : List Char) : Bool := spelling.length = 2
  match choice? w, splitEquals w with
  | some c, _ => .ok (.option c (isShort w) none)
  | none, (name, attached) =>
    match w, choice? name with
    -- A lone dash is an ordinary word.
    | [_], _ => .ok (.plain text)
    | _, some c => .ok (.option c (isShort name) attached)
    | _, none =>
      match candidates w with
      | [(_, word)] => .ok word
      | [] =>
        if isNegativeNumber w || w.contains ' ' then .ok (.plain text) else .ok (.unknown text)
      | several =>
        .error (.misuse ("ambiguous option: " ++ text ++ " could match " ++
          ", ".intercalate (several.map Prod.fst)))

/-- What the words of a command line are. After the divider all of them are plain. -/
def classify : List String → Except Stop (List Word)
  | [] => .ok []
  | "--" :: rest => .ok (.divider :: rest.map .plain)
  | w :: rest => do
    let word ← if w.toList.head? = some '-' then dashed w.toList else .ok (.plain w)
    return word :: (← classify rest)

/-- What has been found in the words so far. -/
structure Found where
  /-- The path. -/
  path : Option String
  /-- The values of the options. -/
  arguments : Arguments
  /-- The words for which there is no use. -/
  extras : List String
  deriving DecidableEq, Repr

namespace Found

/-- Nothing has been found. -/
def start : Found := ⟨none, ⟨"", .lenient, none, false, none, false⟩, []⟩

/-- Takes note of a word for which there is no use. -/
def leave (f : Found) (word : String) : Found := { f with extras := f.extras ++ [word] }

/-- Lets an option without value take effect. -/
def obey (f : Found) : Flag → Except Stop Found
  | .help => .error .help
  | .version => .error .version
  | .write => .ok { f with arguments := { f.arguments with write := true } }
  | .verbose => .ok { f with arguments := { f.arguments with verbose := true } }

/-- Sets the value of an option. -/
def set (f : Found) (s : Setting) (value : String) : Except Stop Found :=
  match s.values with
  | some values =>
    if values.contains value then .ok assigned
    else
      .error (.misuse ("argument " ++ (Choice.setting s).name ++ ": invalid choice: " ++
        quote value ++ " (choose from " ++ ", ".intercalate (values.map quote) ++ ")"))
  | none => .ok assigned
where
  /-- The findings with the value. -/
  assigned : Found :=
    let a := f.arguments
    { f with
      arguments := match s with
        | .target => { a with target := if value = "canonical" then .canonical else .lenient }
        | .language => { a with language := some value }
        | .config => { a with config := some value } }

end Found

/-- Refuses the text attached to an option that takes no value. -/
def ignored (f : Flag) (text : List Char) : Stop :=
  .misuse ("argument " ++ (Choice.flag f).name ++ ": ignored explicit argument " ++
    quote (String.ofList text))

/-- The flags that are put together in one word, given the first one and the text after it, and the
rest of the word if that is not understood. -/
def cluster (f : Flag) : List Char → Except Stop (List Flag × Option String)
  | [] => .ok ([f], none)
  | c :: rest =>
    if c = '-' then .error (ignored f (c :: rest))
    else match choice? ['-', c] with
      | some (.flag g) =>
        if rest.head? = some '=' then .error (ignored g (rest.drop 1))
        else do
          let (fs, left) ← cluster g rest
          return (f :: fs, left)
      | _ => .ok ([f], some (String.ofList ('-' :: c :: rest)))

/-- The effect of an option without value. -/
def applyFlag (found : Found) (f : Flag) (short : Bool) :
    Option Attached → Except Stop Found
  | none => found.obey f
  | some ⟨afterEquals, text⟩ =>
    if !short || afterEquals || text = [] then .error (ignored f text)
    else do
      let (flags, rest) ← cluster f text
      let found := match rest with
        | some w => found.leave w
        | none => found
      flags.foldlM Found.obey found

/-- Goes through the words. -/
def collect (found : Found) : List Word → Except Stop Found
  | [] => .ok found
  | .plain w :: .divider :: rest =>
    if found.path.isNone then collect { found with path := some w } rest
    else collect ((found.leave w).leave "--") rest
  | .plain w :: rest =>
    if found.path.isNone then collect { found with path := some w } rest
    else collect (found.leave w) rest
  -- The divider goes with the word beside it that is the path, and is of no use otherwise.
  | .divider :: .plain w :: rest =>
    if found.path.isNone then collect { found with path := some w } rest
    else collect ((found.leave "--").leave w) rest
  | .divider :: rest => collect (found.leave "--") rest
  | .unknown w :: rest => collect (found.leave w) rest
  | .option (.flag f) short attached :: rest => do
    collect (← applyFlag found f short attached) rest
  | .option (.setting s) _ (some attached) :: rest => do
    collect (← found.set s (String.ofList attached.text)) rest
  | .option (.setting s) _ none :: .plain w :: rest => do collect (← found.set s w) rest
  | .option (.setting s) _ none :: _ =>
    .error (.misuse ("argument " ++ (Choice.setting s).name ++ ": expected one argument"))

/-- What a command line asks for. A missing path is reported before words of no use. -/
def Arguments.parse (words : List String) : Except Stop Arguments := do
  let found ← collect .start (← classify words)
  match found.path with
  | none => throw (.misuse "the following arguments are required: path")
  | some path =>
    if found.extras = [] then return { found.arguments with path }
    else throw (.misuse ("unrecognized arguments: " ++ " ".intercalate found.extras))

end Dialects.CommandLine
