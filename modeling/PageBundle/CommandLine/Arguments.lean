import PageBundle.Log.Event
import PageBundle.Resource.Kind

/-!
# Command-line arguments

The command stands among options that belong to every command and before options of its own. An
option that takes a value may be given once before the command and once after it, and then the
latter counts. Arguments are read from left to right, so that the first mistake or request for help
decides.
-/

namespace PageBundle.CommandLine

/-- How log events are written. -/
inductive LogFormat where
  | pretty
  | json
  deriving DecidableEq, Repr

namespace LogFormat

/-- The name of a format among the arguments. -/
def name : LogFormat → String
  | .pretty => "pretty"
  | .json => "json"

/-- The name of a format in the log. -/
def label : LogFormat → String
  | .pretty => "Pretty"
  | .json => "Json"

/-- The format of a name. -/
def ofName? (s : String) : Option LogFormat :=
  [pretty, json].find? fun f => f.name == s

end LogFormat

/-- What is to be done. -/
inductive Command where
  /-- Optimizes a page for kinds in order. -/
  | optimize (root : String) (kinds : List Kind) (route : String) (output input : Option String)
  /-- Merges resources into one artifact. -/
  | merge (root : String) (kind : Kind) (json : Bool) (members : List String)
  /-- Minifies a script or a style sheet. -/
  | minify (kind : Kind) (output input : Option String)
  deriving DecidableEq, Repr

/-- A command, and the options that belong to every command. -/
structure Invocation where
  verbosity : Nat := 0
  logFormat : LogFormat := .pretty
  config : Option String := none
  command : Command
  deriving DecidableEq, Repr

/-- The least important level that is logged unless a variable says otherwise. -/
def Invocation.level (i : Invocation) : Log.Level :=
  match i.verbosity with
  | 0 => .warn
  | 1 => .info
  | 2 => .debug
  | _ => .trace

/-- Why arguments are no invocation. -/
inductive Stop where
  /-- The arguments are wrong. -/
  | usage
  | help
  | version
  deriving DecidableEq, Repr

/-- What a value must be. -/
inductive Form where
  | text
  | path
  | kind
  | logFormat
  deriving DecidableEq, Repr

/-- Whether a text is a value of a form. -/
def Form.accepts (form : Form) (value : String) : Bool :=
  match form with
  | .text => true
  | .path => value != ""
  | .kind => (Kind.ofName? value).isSome
  | .logFormat => (LogFormat.ofName? value).isSome

/-- What an option does. -/
inductive Action where
  /-- Takes a value; may be given once. -/
  | value (form : Form)
  /-- May be given once. -/
  | flag
  /-- May be given any number of times. -/
  | count
  | stop (why : Stop)
  deriving DecidableEq, Repr

/-- An option: its names and what it does. -/
structure OptionSpec where
  long : String
  short : Option Char := none
  action : Action
  deriving DecidableEq, Repr

/-- The options of every command. -/
def sharedOptions : List OptionSpec :=
  [⟨"verbose", some 'v', .count⟩, ⟨"log-format", none, .value .logFormat⟩,
   ⟨"config", some 'c', .value .path⟩, ⟨"help", some 'h', .stop .help⟩]

/-- What may be given at one level: options, and arguments without names of a form and up to a
number. -/
structure Grammar where
  options : List OptionSpec
  form : Form
  limit : Option Nat

/-- Before the command. -/
def mainGrammar : Grammar :=
  ⟨⟨"version", some 'V', .stop .version⟩ :: sharedOptions, .text, some 0⟩

/-- The arguments of the command that optimizes a page. -/
def optimizeGrammar : Grammar :=
  ⟨[⟨"root", some 'r', .value .path⟩, ⟨"kind", some 'k', .value .kind⟩,
    ⟨"route", none, .value .text⟩, ⟨"output", some 'o', .value .path⟩] ++ sharedOptions,
    .path, some 1⟩

/-- The arguments of the command that merges resources. -/
def mergeGrammar : Grammar :=
  ⟨[⟨"root", some 'r', .value .path⟩, ⟨"kind", some 'k', .value .kind⟩,
    ⟨"json", none, .flag⟩] ++ sharedOptions, .text, none⟩

/-- The arguments of the command that minifies a text. -/
def minifyGrammar : Grammar :=
  ⟨[⟨"kind", some 'k', .value .kind⟩, ⟨"output", some 'o', .value .path⟩] ++ sharedOptions,
    .path, some 1⟩

/-- What was given at one level. -/
structure Given where
  /-- The options by their long names, with their values. -/
  options : List (String × String) := []
  positionals : List String := []
  deriving DecidableEq, Repr

namespace Given

/-- The value of an option. -/
def value? (g : Given) (long : String) : Option String :=
  (g.options.find? fun o => o.1 == long).map (·.2)

/-- How often an option was given. -/
def occurrences (g : Given) (long : String) : Nat :=
  (g.options.filter fun o => o.1 == long).length

/-- Adds an option without a value. -/
def addFlag (g : Given) (spec : OptionSpec) : Except Stop Given :=
  match spec.action with
  | .stop why => .error why
  | .count => .ok { g with options := g.options ++ [(spec.long, "")] }
  | .flag =>
    if g.occurrences spec.long == 0 then .ok { g with options := g.options ++ [(spec.long, "")] }
    else .error .usage
  | .value _ => .error .usage

/-- Adds an option with a value. -/
def addValue (g : Given) (spec : OptionSpec) (value : String) : Except Stop Given :=
  match spec.action with
  | .value form =>
    if form.accepts value && g.occurrences spec.long == 0 then
      .ok { g with options := g.options ++ [(spec.long, value)] }
    else .error .usage
  | _ => .error .usage

/-- Adds an argument without a name. -/
def addPositional (g : Given) (grammar : Grammar) (value : String) : Except Stop Given :=
  if grammar.form.accepts value && grammar.limit.all (g.positionals.length < ·) then
    .ok { g with positionals := g.positionals ++ [value] }
  else .error .usage

end Given

/-- What an argument that begins with a hyphen leads to. -/
inductive Progress where
  | done (g : Given)
  /-- The next argument is the value of an option. -/
  | needsValue (g : Given) (spec : OptionSpec)
  deriving Repr

/-- Reads an option by its long name, without the hyphens; an equals sign begins its value. -/
def readLong (grammar : Grammar) (g : Given) (cs : List Char) : Except Stop Progress :=
  let name := String.ofList (cs.takeWhile (· != '='))
  match grammar.options.find? (·.long == name) with
  | none => .error .usage
  | some spec =>
    match cs.dropWhile (· != '='), spec.action with
    | _ :: value, _ => (g.addValue spec (String.ofList value)).map .done
    | [], .value _ => .ok (.needsValue g spec)
    | [], _ => (g.addFlag spec).map .done

/-- Reads options by their short names, without the hyphen. What follows one that takes a value is
the value, with or without an equals sign. -/
def readShort (grammar : Grammar) (g : Given) : List Char → Except Stop Progress
  | [] => .ok (.done g)
  | c :: cs =>
    match grammar.options.find? (·.short == some c) with
    | none => .error .usage
    | some spec =>
      match spec.action, cs with
      | .value _, [] => .ok (.needsValue g spec)
      | .value _, '=' :: value => (g.addValue spec (String.ofList value)).map .done
      | .value _, value => (g.addValue spec (String.ofList value)).map .done
      | _, cs => do readShort grammar (← g.addFlag spec) cs

/-- What kind of argument a text is. -/
inductive Token where
  /-- All that follows has no name. -/
  | separator
  | long (cs : List Char)
  | short (cs : List Char)
  | plain
  deriving DecidableEq, Repr

/-- The kind of an argument; a hyphen alone is plain. -/
def Token.of (arg : String) : Token :=
  match arg.toList with
  | ['-', '-'] => .separator
  | '-' :: '-' :: cs => .long cs
  | '-' :: c :: cs => .short (c :: cs)
  | _ => .plain

/-- Reads the arguments at one level up to the first plain one if `toCommand` holds, otherwise all;
what is left. -/
def readLevel (grammar : Grammar) (toCommand : Bool) (pending : Option OptionSpec) (g : Given) :
    List String → Except Stop (Given × List String)
  | [] => if pending.isSome then .error .usage else .ok (g, [])
  | arg :: args =>
    match pending, Token.of arg with
    | some spec, .plain => do
      readLevel grammar toCommand none (← g.addValue spec arg) args
    | some _, _ => .error .usage
    | none, .separator => do
      .ok (← args.foldlM (fun g arg => g.addPositional grammar arg) g, [])
    | none, .plain =>
      if toCommand then .ok (g, arg :: args)
      else do readLevel grammar toCommand none (← g.addPositional grammar arg) args
    | none, .long cs => do
      match ← readLong grammar g cs with
      | .done g => readLevel grammar toCommand none g args
      | .needsValue g spec => readLevel grammar toCommand (some spec) g args
    | none, .short cs => do
      match ← readShort grammar g cs with
      | .done g => readLevel grammar toCommand none g args
      | .needsValue g spec => readLevel grammar toCommand (some spec) g args

/-- The grammar of a command. -/
def grammarOf? : String → Option Grammar
  | "optimize" => some optimizeGrammar
  | "merge" => some mergeGrammar
  | "minify" => some minifyGrammar
  | _ => none

/-- The kind that was given. -/
def Given.kind? (g : Given) : Option Kind :=
  (g.value? "kind").bind Kind.ofName?

/-- The command that arguments state; nothing if one is missing. -/
def commandOf? (name : String) (g : Given) : Option Command :=
  let root := (g.value? "root").getD "."
  let output := g.value? "output"
  let input := g.positionals.head?
  match name with
  | "optimize" =>
    let kinds := g.kind?.elim Kind.all fun kind => [kind]
    some (.optimize root kinds ((g.value? "route").getD "/") output input)
  | "merge" =>
    if g.positionals.isEmpty then none
    else g.kind?.map fun kind => .merge root kind (g.occurrences "json" != 0) g.positionals
  | "minify" => g.kind?.map fun kind => .minify kind output input
  | _ => none

/-- What the shared options say when they stand before the command and after it. -/
def invocationOf (before after : Given) (command : Command) : Invocation :=
  let both (long : String) : Option String := (after.value? long).orElse fun _ => before.value? long
  let verbosity := if after.occurrences "verbose" == 0 then before.occurrences "verbose"
    else after.occurrences "verbose"
  { command, verbosity
    logFormat := ((both "log-format").bind LogFormat.ofName?).getD .pretty
    config := both "config" }

/-- What arguments ask for. -/
def parse (args : List String) : Except Stop Invocation := do
  let (before, rest) ← readLevel mainGrammar true none {} args
  match rest with
  | [] => .error .usage
  | ["help"] => .error .help
  | ["help", name] => .error (if name == "help" || (grammarOf? name).isSome then .help else .usage)
  | name :: rest =>
    match grammarOf? name with
    | none => .error .usage
    | some grammar =>
      let (after, _) ← readLevel grammar false none {} rest
      match commandOf? name after with
      | none => .error .usage
      | some command => .ok (invocationOf before after command)

end PageBundle.CommandLine
