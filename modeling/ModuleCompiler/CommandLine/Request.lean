import ModuleCompiler.Settings.Basic

/-!
What the arguments of the command line ask for. Options come first, then a command with its own
arguments; compiling the standard input is what is done without a command.
-/

namespace ModuleCompiler

inductive Command where
  | compile (file : Option String)
  | check (file : Option String)
  | versions
  deriving DecidableEq, Repr

structure Request where
  config : Option String := none
  format : Option OutputFormat := none
  printConfig : Bool := false
  verbosity : Nat := 0
  command : Command := .compile none
  deriving DecidableEq, Repr

inductive UsageError where
  | unknownOption (name : String)
  | repeatedOption (name : String)
  | missingValue (name : String)
  | emptyValue (name : String)
  | unknownFormat (e : OutputFormat.Unknown)
  | unexpectedValue (name : String)
  | unknownCommand (name : String)
  | unexpectedArgument (text : String)
  deriving DecidableEq, Repr

def UsageError.message : UsageError → String
  | unknownOption name => s!"unknown option '{name}'"
  | repeatedOption name => s!"option '{name}' is given more than once"
  | missingValue name => s!"option '{name}' needs a value"
  | emptyValue name => s!"the value of '{name}' is empty"
  | unknownFormat e => e.message
  | unexpectedValue name => s!"option '{name}' takes no value"
  | unknownCommand name => s!"unknown command '{name}'"
  | unexpectedArgument text => s!"unexpected argument '{text}'"

inductive Topic where
  | program
  | compile
  | check
  | versions
  | help
  deriving DecidableEq, Repr

/-- Why no request is carried out. -/
inductive Halt where
  | misuse (e : UsageError)
  | help (topic : Topic)
  | version
  deriving DecidableEq, Repr

namespace Request

inductive ValueOption where
  | config
  | format
  deriving DecidableEq, Repr

def ValueOption.name : ValueOption → String
  | config => "--config"
  | format => "--format"

inductive Flag where
  | printConfig
  | verbose
  | help
  | version
  deriving DecidableEq, Repr

inductive RootOption where
  | value (o : ValueOption)
  | flag (f : Flag)
  deriving DecidableEq, Repr

namespace RootOption

def ofName? : String → Option RootOption
  | "config" => some (.value .config)
  | "format" => some (.value .format)
  | "print-config" => some (.flag .printConfig)
  | "verbose" => some (.flag .verbose)
  | "help" => some (.flag .help)
  | "version" => some (.flag .version)
  | _ => none

def ofLetter? : Char → Option RootOption
  | 'c' => some (.value .config)
  | 'f' => some (.value .format)
  | 'v' => some (.flag .verbose)
  | 'h' => some (.flag .help)
  | 'V' => some (.flag .version)
  | _ => none

end RootOption

abbrev Reading := Except Halt

def refuse (e : UsageError) : Reading α := .error (.misuse e)

def setValue (r : Request) (o : ValueOption) (value : String) : Reading Request :=
  match o with
  | .config =>
    if r.config.isSome then refuse (.repeatedOption o.name)
    else if value.isEmpty then refuse (.emptyValue o.name)
    else .ok { r with config := some value }
  | .format =>
    if r.format.isSome then refuse (.repeatedOption o.name)
    else
      match OutputFormat.ofText value with
      | .error e => refuse (.unknownFormat e)
      | .ok f => .ok { r with format := some f }

def setFlag (r : Request) : Flag → Reading Request
  | .printConfig =>
    if r.printConfig then refuse (.repeatedOption "--print-config")
    else .ok { r with printConfig := true }
  | .verbose => .ok { r with verbosity := r.verbosity + 1 }
  | .help => .error (.help .program)
  | .version => .error .version

/-- A request so far, and the option that the next argument is the value of. -/
abbrev Pending := Request × Option ValueOption

/-- Letters after one dash. What follows an option with a value is its value. -/
def readLetters (r : Request) : List Char → Reading Pending
  | [] => .ok (r, none)
  | c :: cs =>
    match RootOption.ofLetter? c with
    | none => refuse (.unknownOption s!"-{c}")
    | some (.flag f) => do readLetters (← setFlag r f) cs
    | some (.value o) =>
      match cs with
      | [] => .ok (r, some o)
      | '=' :: value => return (← setValue r o (String.ofList value), none)
      | value => return (← setValue r o (String.ofList value), none)

def readName (r : Request) (cs : List Char) : Reading Pending :=
  let name := String.ofList (cs.takeWhile (· ≠ '='))
  match RootOption.ofName? name, cs.dropWhile (· ≠ '=') with
  | none, _ => refuse (.unknownOption ("--" ++ name))
  | some (.flag f), [] => return (← setFlag r f, none)
  | some (.flag _), _ => refuse (.unexpectedValue ("--" ++ name))
  | some (.value o), [] => return (r, some o)
  | some (.value o), _ :: value => return (← setValue r o (String.ofList value), none)

/-- A single dash is a word. -/
def isOption (arg : String) : Bool := arg.startsWith "-" && arg ≠ "-"

def asksForHelp (arg : String) : Bool := arg = "--help" || arg.startsWith "-h"

/-- At most one file; after two dashes anything is one. -/
def readFile (topic : Topic) (literal : Bool) (file : Option String) :
    List String → Reading (Option String)
  | [] => .ok file
  | arg :: args =>
    if literal || !isOption arg then
      if file.isSome then refuse (.unexpectedArgument arg)
      else if arg.isEmpty then refuse (.emptyValue "FILE")
      else readFile topic literal (some arg) args
    else if arg = "--" then readFile topic true file args
    else if asksForHelp arg then .error (.help topic)
    else refuse (.unexpectedArgument arg)

def readNothing (topic : Topic) : List String → Reading Unit
  | [] => .ok ()
  | ["--"] => .ok ()
  | arg :: _ => if asksForHelp arg then .error (.help topic) else refuse (.unexpectedArgument arg)

def helpTopic : List String → Reading Topic
  | [] => .ok .program
  | name :: rest => do
    let topic ← match name with
      | "compile" => .ok .compile
      | "check" => .ok .check
      | "versions" => .ok .versions
      | "help" => .ok .help
      | _ => refuse (.unknownCommand name)
    match rest with
    | [] => .ok topic
    | arg :: _ => refuse (.unknownCommand arg)

def readCommand (name : String) (args : List String) : Reading Command :=
  match name with
  | "compile" => return .compile (← readFile .compile false none args)
  | "check" => return .check (← readFile .check false none args)
  | "versions" => do
    readNothing .versions args
    return .versions
  | "help" => do throw (.help (← helpTopic args))
  | _ => refuse (.unknownCommand name)

def readArguments : Pending → List String → Reading Request
  | (r, none), [] => .ok r
  | (_, some o), [] => refuse (.missingValue o.name)
  | (r, some o), arg :: args =>
    if isOption arg then refuse (.missingValue o.name)
    else do readArguments (← setValue r o arg, none) args
  | (r, none), arg :: args =>
    if arg = "--" then
      match args with
      | [] => .ok r
      | extra :: _ => refuse (.unexpectedArgument extra)
    else if isOption arg then
      match arg.toList with
      | '-' :: '-' :: cs => do readArguments (← readName r cs) args
      | cs => do readArguments (← readLetters r (cs.drop 1)) args
    else return { r with command := ← readCommand arg args }

def ofArguments (args : List String) : Reading Request := readArguments ({}, none) args

def overrides (r : Request) : Overrides := ⟨r.format, r.verbosity⟩

end Request

end ModuleCompiler
