import PageBundle.StyleSheet.Cascade

/-!
# Minifying style sheets

A sheet is minified by reading its rules and writing them without optional white space. Rules
without declarations have no effect and are dropped, and so are rules that later ones replace. The
notices at the start of the sheet are kept, each on a line of its own.
-/

namespace PageBundle.StyleSheet

/-- Why a style sheet cannot be minified. -/
inductive Error where
  /-- The sheet is not a list of rules. -/
  | parse
  /-- What another minifier tells. -/
  | other (message : String)
  deriving DecidableEq, Repr

/-- The wording of an error. -/
def Error.message : Error → String
  | .parse => "style sheet parse error"
  | .other message => message

/-- The line of a notice. -/
def noticeLine (text : List Char) : List Char :=
  '/' :: '*' :: text ++ ['*', '/', '\n']

/-- The minified text of a style sheet. -/
def minify (sheet : String) : Except Error String :=
  let ts := tokens sheet.toList
  match rules? ts.length ts with
  | none => .error .parse
  | some rules =>
    let rules := rules.map fun r => { r with declarations := settle r.declarations }
    let kept := condense (rules.filter fun r => !r.declarations.isEmpty)
    .ok (String.ofList ((notices sheet.toList).flatMap noticeLine ++ kept.flatMap Rule.text))

end PageBundle.StyleSheet
