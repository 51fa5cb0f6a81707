import PageBundle.Artifact.Path
import PageBundle.Artifact.Policy
import PageBundle.Artifact.Tools

/-!
# Settings

The settings of an optimizer, the values derived from them, and their reading from a structured
value.
-/

namespace PageBundle

/-- What an optimizer is told. -/
structure Settings where
  /-- Whether pages are optimized at all. -/
  enabled : Bool := true
  /-- Keywords, separated by commas; what contains one of them is never merged. -/
  exclude : String := ""
  /-- The label of the charset of resources and artifacts. -/
  charsetLabel : String := "UTF-8"
  /-- Whether any artifact is minified. -/
  minify : Bool := true
  /-- Whether any artifact is compressed. -/
  compress : Bool := false
  /-- Whether optimized pages are kept. -/
  cache : Bool := true
  /-- Whether artifacts are named for delivery by a servlet. -/
  useServlet : Bool := false
  /-- The path under which the site is deployed, put before the paths of artifacts. -/
  contextPath : String := ""
  script : Policy := { directory := some (Kind.defaultDirectory .script) }
  style : Policy := { directory := some (Kind.defaultDirectory .style) }
  deriving DecidableEq, Repr

namespace Settings

/-- The charset, if the label has one. -/
def charset? (s : Settings) (tools : Tools := .builtIn) : Option Charset :=
  Charset.ofLabel? s.charsetLabel tools.codecOf

/-- UTF-8 is the same whatever the tools. -/
theorem charset?_of_utf8 {s : Settings} (utf8 : Charset.nameOf? s.charsetLabel = some "UTF-8")
    (tools : Tools) : s.charset? tools = some .utf8 := by
  rw [charset?, Charset.ofLabel?, utf8, Option.map_some, Charset.ofName_utf8]

/-- The exclusion keywords, without blanks around them and without blank ones. -/
def excludeKeywords (s : Settings) : List String :=
  ((s.exclude.toList.splitOn ',').map fun k => Text.trim (String.ofList k)).filter (· != "")

/-- The policy for a kind. -/
def policy (s : Settings) : Kind → Policy
  | .script => s.script
  | .style => s.style

/-- How artifacts are named. -/
def buildMode (s : Settings) : BuildMode :=
  if s.useServlet then .servlet else .static

/-- The context path without blanks around it and slashes at its end. -/
def contextPrefix (s : Settings) : String :=
  String.ofList (Text.dropEnd (· == '/') (Text.dropEnds Text.isBlank s.contextPath.toList))

/-- The names of the settings in a value. -/
def fieldNames : List String :=
  ["enabled", "exclude", "charset", "minify", "compress", "cache", "use_servlet", "context_path",
   "script", "style"]

/-- The settings that a value tells; what it leaves out is as in the default settings. -/
def ofValue? (manner : Value.Manner) (v : Value) : Option Settings := do
  let usual : Settings := {}
  match ← v.fields? manner fieldNames with
  | [enabled, exclude, charset, minify, compress, cache, useServlet, contextPath, script, style] =>
    let enabled ← Value.fieldOr usual.enabled (·.bool? manner) enabled
    let exclude ← Value.fieldOr usual.exclude (·.text? manner) exclude
    let charsetLabel ← Value.fieldOr usual.charsetLabel (·.text? manner) charset
    let minify ← Value.fieldOr usual.minify (·.bool? manner) minify
    let compress ← Value.fieldOr usual.compress (·.bool? manner) compress
    let cache ← Value.fieldOr usual.cache (·.bool? manner) cache
    let useServlet ← Value.fieldOr usual.useServlet (·.bool? manner) useServlet
    let contextPath ← Value.fieldOr usual.contextPath (·.text? manner) contextPath
    let script ← Value.fieldOr usual.script (Policy.ofValue? manner) script
    let style ← Value.fieldOr usual.style (Policy.ofValue? manner) style
    some { enabled, exclude, charsetLabel, minify, compress, cache, useServlet, contextPath,
           script, style }
  | _ => none

/-- The settings as a value. -/
def toValue (s : Settings) : Value :=
  .table [("enabled", .bool s.enabled), ("exclude", .text s.exclude),
    ("charset", .text s.charsetLabel), ("minify", .bool s.minify), ("compress", .bool s.compress),
    ("cache", .bool s.cache), ("use_servlet", .bool s.useServlet),
    ("context_path", .text s.contextPath), ("script", s.script.toValue),
    ("style", s.style.toValue)]

end Settings

end PageBundle
