import PageBundle.StyleSheet.Token

/-!
# Rules of style sheets

A rule is a list of selectors and the declarations for what they select. A selector is a chain of
compounds, each of an element name, classes and an identifier, joined by combinators. `rules?` reads
the rules of a sheet; a rule that is not closed is closed by the end of the sheet.
-/

namespace PageBundle.StyleSheet

/-- A condition on one element. -/
inductive Simple where
  | element (name : List Char)
  | anyElement
  | ofClass (name : List Char)
  | ofId (name : List Char)
  deriving DecidableEq, Repr

/-- How two elements of a selector stand to each other. -/
inductive Combinator where
  | descendant
  | child
  | next
  | later
  deriving DecidableEq, Repr

/-- A chain of elements, each with the combinator that leads to it. -/
structure Selector where
  first : List Simple
  others : List (Combinator × List Simple)
  deriving DecidableEq, Repr

/-- A property and its value. -/
structure Declaration where
  property : List Char
  value : List Token
  deriving DecidableEq, Repr

/-- Selectors and the declarations for what they select. -/
structure Rule where
  selectors : List Selector
  declarations : List Declaration
  deriving DecidableEq, Repr

/-- The parts of a list between the items equal to `separator`. -/
def splitAt (separator : Token) (ts : List Token) : List (List Token) :=
  ts.splitOn separator

/-- The classes and identifiers at the start of some tokens, and the rest. -/
def simples : List Token → List Simple × List Token
  | .char '.' :: .name n :: ts => (.ofClass n :: (simples ts).1, (simples ts).2)
  | .hash n :: ts => (.ofId n :: (simples ts).1, (simples ts).2)
  | ts => ([], ts)

/-- The compound at the start of some tokens, and the rest; at least one condition is needed. -/
def compound? (ts : List Token) : Option (List Simple × List Token) :=
  let (conditions, rest) : List Simple × List Token := match ts with
    | .name n :: ts => (.element n :: (simples ts).1, (simples ts).2)
    | .char '*' :: ts => (.anyElement :: (simples ts).1, (simples ts).2)
    | ts => simples ts
  if conditions.isEmpty then none else some (conditions, rest)

/-- The combinator at the start of some tokens, and the rest. -/
def combinator? (ts : List Token) : Option (Combinator × List Token) :=
  match skipBlanks ts with
  | .char '>' :: rest => some (.child, skipBlanks rest)
  | .char '+' :: rest => some (.next, skipBlanks rest)
  | .char '~' :: rest => some (.later, skipBlanks rest)
  | rest => if ts.head? == some .blank then some (.descendant, rest) else none

/-- The compounds after the first one, each with its combinator, up to the end of the tokens. -/
def others? : Nat → List Token → Option (List (Combinator × List Simple))
  | _, [] => some []
  | 0, _ => none
  | fuel + 1, ts => do
    let (combinator, ts) ← combinator? ts
    let (conditions, ts) ← compound? ts
    let others ← others? fuel ts
    some ((combinator, conditions) :: others)

/-- The selector that some tokens write. -/
def selector? (ts : List Token) : Option Selector := do
  let (first, rest) ← compound? (trimBlanks ts)
  let others ← others? rest.length rest
  some ⟨first, others⟩

/-- The declaration that some tokens write. -/
def declaration? (ts : List Token) : Option Declaration :=
  match trimBlanks ts with
  | .name property :: rest =>
    match skipBlanks rest with
    | .char ':' :: value => some ⟨property, squeezeBlanks (trimBlanks value)⟩
    | _ => none
  | _ => none

/-- The declarations between the braces of a rule, which semicolons separate. -/
def declarations? (ts : List Token) : Option (List Declaration) :=
  ((splitAt (.char ';') ts).filter fun part => !(trimBlanks part).isEmpty).mapM declaration?

/-- Whether a token opens or closes a rule. -/
def isBrace (t : Token) : Bool :=
  t == .char '\x7b' || t == .char '\x7d'

/-- The rules that some tokens write. -/
def rules? : Nat → List Token → Option (List Rule)
  | fuel, ts =>
    match skipBlanks ts, fuel with
    | [], _ => some []
    | _, 0 => none
    | ts, fuel + 1 =>
      let selectors := ts.takeWhile (!isBrace ·)
      match ts.dropWhile (!isBrace ·) with
      | .char '\x7b' :: inside =>
        let body := inside.takeWhile (!isBrace ·)
        let rest := inside.dropWhile (!isBrace ·)
        if rest.head? == some (.char '\x7b') then none
        else do
          let selectors ← (splitAt (.char ',') selectors).mapM selector?
          let declarations ← declarations? body
          let rules ← rules? fuel (rest.drop 1)
          some (⟨selectors, declarations⟩ :: rules)
      | _ => none

/-- The text of a condition. -/
def Simple.text : Simple → List Char
  | .element name => name
  | .anyElement => ['*']
  | .ofClass name => '.' :: name
  | .ofId name => '#' :: name

/-- The text of a combinator. -/
def Combinator.text : Combinator → List Char
  | .descendant => [' ']
  | .child => ['>']
  | .next => ['+']
  | .later => ['~']

/-- The text of a selector without optional white space. -/
def Selector.text (s : Selector) : List Char :=
  s.first.flatMap Simple.text ++
    s.others.flatMap fun o => o.1.text ++ o.2.flatMap Simple.text

/-- The text of a declaration without optional white space. -/
def Declaration.text (d : Declaration) : List Char :=
  d.property ++ ':' :: d.value.flatMap Token.text

/-- The text of a rule without optional white space. -/
def Rule.text (r : Rule) : List Char :=
  [','].intercalate (r.selectors.map Selector.text) ++ '\x7b' ::
    ([';'].intercalate (r.declarations.map Declaration.text) ++ ['\x7d'])

end PageBundle.StyleSheet
