import PageBundle.CommandLine.Arguments
import PageBundle.Log.Filter
import PageBundle.Log.Report
import PageBundle.Settings.Load
import PageBundle.Store.Deployment
import PageBundle.Value.Json

/-!
# Running commands

A command reads its input, works on files, and ends with what it prints, what it logs, and a message
if it failed. Errors are told with what led to them, from the outermost on.
-/

namespace PageBundle.CommandLine

/-- The name and the version of the program. -/
def versionLine : String := "wpo 0.1.0\n"

/-- How the arguments are to be given. -/
def usageText : String :=
  "Usage: wpo [OPTIONS] <COMMAND>\n\nCommands:\n" ++
  "  optimize [-r ROOT] [-k KIND] [--route ROUTE] [-o OUTPUT] [INPUT]\n" ++
  "  merge [-r ROOT] -k KIND [--json] MEMBERS...\n" ++
  "  minify -k KIND [-o OUTPUT] [INPUT]\n\nOptions:\n" ++
  "  -v, --verbose\n  --log-format <pretty|json>\n  -c, --config <CONFIG>\n" ++
  "  -h, --help\n  -V, --version\n"

/-- What a program does in the end. -/
structure Outcome where
  exitCode : Nat
  stdout : Bytes := []
  /-- The events that are logged, in order. -/
  events : List Log.Event := []
  logFormat : LogFormat := .pretty
  /-- Why the command failed. -/
  failure : Option String := none

/-- What a command has logged, and the text that it prints or why it failed. -/
structure Report where
  events : List Log.Event
  result : Except String Bytes

/-- A report with more events before those that it has. -/
def Report.after (r : Report) (events : List Log.Event) : Report :=
  { r with events := events ++ r.events }

/-- A report that something failed. -/
def Report.failed (message : String) : Report :=
  ⟨[], .error message⟩

/-- The text of an error of a store with what led to it, which its own text has already told. -/
def chain (e : Store.Error) : String :=
  match e with
  | .read _ fault => e.message ++ ": " ++ fault.message
  | .write _ fault => e.message ++ ": " ++ fault.message
  | _ => e.message

variable {m : Type → Type} [Monad m]

/-- Whether a path stands for standard input. -/
def isStandardInput (path : String) : Bool :=
  match File.namesOf path with
  | name :: names => name == "-" && names.all (· == ".") && path.toList.head? != some '/'
  | [] => false

/-- The contents of a file, or of standard input. -/
def readInput (files : File.System m) (stdin : m Bytes) : Option String → m (Except String Bytes)
  | none => return .ok (← stdin)
  | some path => do
    if isStandardInput path then return .ok (← stdin)
    return (← files.read path).mapError fun fault => s!"cannot read {path}: {fault.message}"

/-- Writes a file, or prints. -/
def writeOutput (files : File.System m) (contents : Bytes) : Option String → m Report
  | none => return ⟨[], .ok contents⟩
  | some path => do
    match ← files.write path contents with
    | .ok () => return ⟨[], .ok []⟩
    | .error fault => return .failed s!"cannot write {path}: {fault.message}"

/-- The text of some bytes, which are told to be `what` if they are none. -/
def textOf (what : String) (contents : Bytes) : Except String String :=
  match Utf8.decode contents with
  | .ok cs => .ok (String.ofList cs)
  | .error fault => .error s!"{what} is not valid UTF-8: {fault.message}"

/-- The deployment under a root, which must be a directory. -/
def deploymentAt (files : File.System m) (settings : Settings) (root : String) :
    m (Except String Store.Deployment) := do
  if ← files.isDirectory root then return .ok (.of root settings.contextPrefix)
  else return .error s!"deployment root {root} is not a directory"

/-- Minifies a script or a style sheet. -/
def minify (files : File.System m) (stdin : m Bytes) (tools : Tools) (kind : Kind)
    (output input : Option String) : m Report := do
  match ← readInput files stdin input with
  | .error e => return .failed e
  | .ok source =>
    match kind with
    | .script => writeOutput files (Script.minify source) output
    | .style =>
      match textOf "style sheet" source with
      | .error e => return .failed e
      | .ok text =>
        match tools.minifyStyleSheet text with
        | .error e => return .failed e.message
        | .ok minified => writeOutput files (Utf8.ofString minified) output

/-- The event that ends the optimizing of a page for a kind. -/
def optimizedEvent (kind : Kind) (counts : RequestCounts) : Log.Event :=
  ⟨.info, "wpo::commands", "optimized page",
    [Log.field "kind" kind.name, Log.count "builds" counts.builds.toNat,
      Log.count "failed" counts.failedBuilds.toNat]⟩

/-- Optimizes a page for kinds in order: the events and the page. -/
def optimizeKinds (store : Store m) (route : String) (o : Optimizer) (page : String) :
    List Kind → m (List Log.Event × String)
  | [] => pure ([], page)
  | kind :: kinds => do
    let (service, o) ← o.page store kind route page
    let (events, page) ← optimizeKinds store route o service.body kinds
    let own := Log.ofService kind route service ++ [optimizedEvent kind (o.artifacts kind).counts]
    return (own ++ events, page)

/-- Optimizes a page. -/
def optimize (files : File.System m) (stdin : m Bytes) (tools : Tools) (settings : Settings)
    (root : String) (kinds : List Kind) (route : String) (output input : Option String) :
    m Report := do
  match (← readInput files stdin input).bind (textOf "page") with
  | .error e => return .failed e
  | .ok page =>
    match ← deploymentAt files settings root with
    | .error e => return .failed e
    | .ok deployment =>
      match Optimizer.ofSettings? settings tools with
      | none => return .failed (Settings.LoadError.unsupportedCharset settings.charsetLabel).message
      | some o =>
        let (events, page) ← optimizeKinds (deployment.store files) route o page kinds
        return (← writeOutput files (Utf8.ofString page) output).after events

/-- The report on an artifact as a value. -/
def mergeValue (r : Merge) (bytes : Nat) (run : Run) (s : Gzip.Statistics) : Value :=
  .table [
    ("artifact", .table [("path", .text r.path), ("merged", Value.ofTexts r.merged),
      ("skipped", Value.ofTexts r.skipped), ("bytes", .int bytes)]),
    ("steps", .table [("applied", Value.ofTexts run.applied),
      ("failed", Value.ofTexts run.failed)]),
    ("compression", .table [("input_bytes", .int s.inputBytes.toNat),
      ("output_bytes", .int s.outputBytes.toNat), ("compress_count", .int s.count.toNat)])]

/-- The event that tells which members were left out, if any were. -/
def skippedEvents (r : Merge) : List Log.Event :=
  if r.skipped.isEmpty then []
  else
    [⟨.warn, "wpo::commands", "some resources were left out of the merge",
      [Log.field "skipped" (Text.quotedList r.skipped)]⟩]

/-- Merges a set into its artifact in a store, puts it through the pipeline of its kind, and prints
its path or a report. -/
def mergeInto (store : Store m) (tools : Tools) (settings : Settings) (charset : Charset)
    (kind : Kind) (json : Bool) (set : ReferenceSet) : m Report := do
  let policy := settings.policy kind
  let path := artifactPath (policy.directoryFor kind) settings.buildMode kind set
  let merged ← PageBundle.merge store charset set path
  match merged.written with
  | .error e => return ⟨Log.ofMerge merged, .error (chain e)⟩
  | .ok bytes =>
    let pipeline := Pipeline.ofPolicy charset kind policy settings.minify settings.compress
    let (run, pipeline) ← pipeline.run store path tools
    let text := if json then Json.pretty (mergeValue merged bytes run pipeline.statistics)
      else settings.contextPrefix ++ path
    return ⟨Log.ofMerge merged ++ Log.ofRun path run ++ skippedEvents merged,
      .ok (Utf8.ofString (text ++ "\n"))⟩

/-- Merges resources into one artifact of the deployment under a root. -/
def merge (files : File.System m) (tools : Tools) (settings : Settings) (root : String) (kind : Kind)
    (json : Bool) (members : List String) : m Report := do
  let set := ReferenceSet.ofList members
  if set.isEmpty then return .failed "no resources to merge"
  match ← deploymentAt files settings root, settings.charset? tools with
  | .error e, _ => return .failed e
  | .ok _, none =>
    return .failed (Settings.LoadError.unsupportedCharset settings.charsetLabel).message
  | .ok deployment, some charset =>
    mergeInto (deployment.store files) tools settings charset kind json set

/-- Runs a command. -/
def runCommand (files : File.System m) (stdin : m Bytes) (environment : List (String × String))
    (tools : Tools) (config : Option String) : Command → m Report
  | .minify kind output input => minify files stdin tools kind output input
  | .optimize root kinds route output input => do
    match ← Settings.load files config environment with
    | .error e => return .failed e.message
    | .ok settings => optimize files stdin tools settings root kinds route output input
  | .merge root kind json members => do
    match ← Settings.load files config environment with
    | .error e => return .failed e.message
    | .ok settings => merge files tools settings root kind json members

/-- The event that begins a log. -/
def startEvent (i : Invocation) : Log.Event :=
  ⟨.debug, "wpo::logging", "logging initialized",
    [Log.field "level" i.level.name, Log.field "format" i.logFormat.label]⟩

/-- What an invocation comes to. Without a filter for the log nothing is run. -/
def runInvocation (files : File.System m) (stdin : m Bytes) (environment : List (String × String))
    (tools : Tools) (i : Invocation) : m Outcome := do
  match Log.Filter.ofVariables environment i.level with
  | none => return { exitCode := 101 }
  | some filter =>
    let report ← runCommand files stdin environment tools i.config i.command
    let events := (startEvent i :: report.events).filter filter.admits
    let logFormat := i.logFormat
    match report.result with
    | .ok stdout => return { exitCode := 0, stdout, events, logFormat }
    | .error message => return { exitCode := 1, events, logFormat, failure := some message }

/-- What the arguments come to without a command to run. -/
def stopped : Stop → Outcome
  | .usage => { exitCode := 2 }
  | .help => { exitCode := 0, stdout := Utf8.ofString usageText }
  | .version => { exitCode := 0, stdout := Utf8.ofString versionLine }

/-- Runs the program. -/
def run (files : File.System m) (stdin : m Bytes) (environment : List (String × String))
    (args : List String) (tools : Tools := .builtIn) : m Outcome :=
  match parse args with
  | .error stop => pure (stopped stop)
  | .ok invocation => runInvocation files stdin environment tools invocation

end PageBundle.CommandLine
