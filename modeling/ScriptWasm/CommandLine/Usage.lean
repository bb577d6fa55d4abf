import ScriptWasm.Text.Similarity
import ScriptWasm.Text.Terminal

/-!
# Arguments

The program is called with the name of one file. Two options ask for help or for the version
instead, as soon as they are met. Behind a double hyphen everything is a name.
-/

namespace ScriptWasm.CommandLine

/-- What the program is asked to do. -/
inductive Request where
  | compile (file : String)
  | help
  | version
deriving DecidableEq, Repr

/-- The options, by their long and short names. -/
def options : List (String × Char × Request) := [("help", 'h', .help), ("version", 'V', .version)]

/-- What might have been meant. -/
inductive Tip where
  /-- An option with a similar name. -/
  | similar (name : String)
  /-- The argument itself, as the name of a file. -/
  | asValue
  | none
deriving DecidableEq, Repr

/-- Why arguments make no sense. -/
inductive UsageError where
  | missingFile
  | emptyFile
  | unexpected (argument : String) (tip : Tip)
  /-- An option that takes no value is given one. -/
  | unexpectedValue (value option : String)
deriving DecidableEq, Repr

/-! ## Reading -/

/-- Does what an option asks for. A name that has been given before it is looked at first. -/
def answer (file? : Option String) (request : Request) : Except UsageError Request :=
  if file? = some "" then .error .emptyFile else .ok request

/-- A long option, without its hyphens. -/
def readLong (file? : Option String) (argument : List Char) : Except UsageError Request :=
  let name := String.ofList (argument.takeWhile (· ≠ '='))
  let value := argument.dropWhile (· ≠ '=')
  match options.lookup name with
  | some (_, request) =>
    if value.isEmpty then answer file? request
    else .error (.unexpectedValue (String.ofList (value.drop 1)) ("--" ++ name))
  | none =>
    match Text.mostSimilar? name.toList (options.map (·.1)) with
    | some long => .error (.unexpected ("--" ++ name) (.similar ("--" ++ long)))
    | none => .error (.unexpected ("--" ++ name) .asValue)

/-- The first of a list of short options. -/
def readShort (file? : Option String) (c : Char) : Except UsageError Request :=
  match options.find? fun (_, short, _) ↦ short = c with
  | some (_, _, request) => answer file? request
  | none => .error (.unexpected (String.ofList ['-', c]) .asValue)

/-- Reads arguments. `file?` is the name given so far; `literal` is whether everything is a name. -/
def readArguments (file? : Option String) (literal : Bool) :
    List String → Except UsageError Request
  | [] =>
    match file? with
    | none => .error .missingFile
    | some "" => .error .emptyFile
    | some file => .ok (.compile file)
  | a :: rest =>
    let name : Except UsageError Request :=
      match file? with
      | none => readArguments (some a) literal rest
      | some _ => .error (.unexpected a .none)
    if literal then name
    else
      match a.toList with
      | '-' :: '-' :: [] => readArguments file? true rest
      | '-' :: '-' :: argument => readLong file? argument
      | '-' :: c :: _ => readShort file? c
      | _ => name

/-- What arguments ask for. -/
def Request.ofArguments (arguments : List String) : Except UsageError Request :=
  readArguments none false arguments

/-! ## Texts -/

/-- How the program is called, with an option or without. -/
def usageLine (option? : Option String) : String :=
  match option? with
  | none => "Usage: lexico <FILE>\n"
  | some option => "Usage: lexico " ++ option ++ " <FILE>\n"

def helpText : String :=
  "Lexico Compiler\n\n" ++ usageLine none ++ "\nArguments:\n  <FILE>  Program to compile\n\n" ++
    "Options:\n  -h, --help     Print help\n  -V, --version  Print version\n"

def versionText : String := "lexico 0.1.0\n"

def helpHint : String := "\nFor more information, try '--help'.\n"

/-- An argument in a colour of its own. The colour ends with it, and so does whatever sequence of
controls the argument leaves open. -/
def coloured (argument : String) : String := "\x1b[33m" ++ argument ++ "\x1b[0m"

def Tip.text (argument : String) : Tip → String
  | .similar name => s!"  tip: a similar argument exists: '{name}'\n\n"
  | .asValue =>
    s!"  tip: to pass '{coloured argument}' as a value, use '-- {coloured argument}'\n\n"
  | .none => ""

/-- The option that a tip brings into the description of how to call the program. -/
def Tip.option? : Tip → Option String
  | .similar name => some name
  | _ => Option.none

/-- The description of an error for a terminal. -/
def UsageError.styled : UsageError → String
  | .missingFile =>
    "error: the following required arguments were not provided:\n  <FILE>\n\n" ++ usageLine none ++
      helpHint
  | .emptyFile => "error: a value is required for '<FILE>' but none was supplied\n" ++ helpHint
  | .unexpected argument tip =>
    s!"error: unexpected argument '{coloured argument}' found\n\n" ++ tip.text argument ++
      usageLine tip.option? ++ helpHint
  | .unexpectedValue value option =>
    s!"error: unexpected value '{coloured value}' for '{option}' found; " ++
      "no more were expected\n\n" ++ usageLine (some option) ++ helpHint

/-- The description of an error for any reader. -/
def UsageError.text (e : UsageError) : String := Text.withoutControls e.styled

end ScriptWasm.CommandLine
