/-
The grammar of Python, up to version 3.13, with the `print` and `exec` statements of version 2. A
suite is either statements on the line of the colon, an indented block, or nothing at all.
-/
import Maintainability.Python.Layout

namespace Maintainability.Python

open Grammar (Pattern Rules)
open Grammar.Pattern

/-- The rules of the grammar. -/
inductive Rule where
  | file | statement | simpleLine | simple | suite | compound | expression | starred
  | expressions | operand | selected | atom | arguments | comprehension | lambda | yield_
  | strings | interpolation | target | targets | typeHint | typeParameters | parameters
  | function | class_ | casePattern | closedPattern | assignment | rightSide
  deriving DecidableEq, Repr

namespace Rule

private abbrev P := Pattern Rule

private def t (kind : String) : P := .token kind
private def r (rule : Rule) : P := .rule rule

/-- An identifier. -/
def identifier : P := t "identifier"

/-- A dotted name. -/
def dotted : P := sepBy1 identifier (t ".")

/-- Items with commas between, and maybe one behind. -/
def commas (p : P) : P := sepEndBy1 p (t ",")

/-- As `commas`, or nothing. -/
def commas0 (p : P) : P := sepEndBy p (t ",")

/-- A pattern in parentheses. -/
def inParens (p : P) : P := seqs [t "(", p, t ")"]

/-- A pattern in brackets. -/
def inBrackets (p : P) : P := seqs [t "[", p, t "]"]

/-- A pattern in braces. -/
def inBraces (p : P) : P := seqs [t "\x7b", p, t "\x7d"]

/-- The end of a simple statement. -/
def statementEnd : P := .ahead (.oneOf [";", "newline"])

/-- One level of binary operators over the level below. -/
def level (sign below : P) : P :=
  .chain "binary_operator" below (.seq (.part "operator" sign) below)

/-- The operators of arithmetic and of bits. -/
def arithmetic : P :=
  let product := level (.oneOf ["*", "/", "%", "//", "@"]) (r .operand)
  let sum := level (.oneOf ["+", "-"]) product
  let shift := level (.oneOf ["<<", ">>"]) sum
  level (t "|") (level (t "^") (level (t "&") shift))

/-- Comparisons, which may follow each other. -/
def comparison : P :=
  .chain "comparison_operator" arithmetic
    (.seq (alts (.oneOf ["<", "<=", "==", "!=", ">=", ">", "<>", "in"])
      [.seq (t "not") (t "in"), .seq (t "is") (optional (t "not"))]) arithmetic)

/-- Negations, conjunctions and disjunctions. -/
def boolean : P :=
  let negation := .alt
    (.node "not_operator" (.seq (many1 (t "not")) (.alt (r .lambda) comparison))) comparison
  let side := .alt negation (r .lambda)
  let conjunction := .chain "boolean_operator" negation (.seq (.part "operator" (t "and")) side)
  .chain "boolean_operator" conjunction
    (.seq (.part "operator" (t "or")) (.alt conjunction (r .lambda)))

/-- A suite that follows `else`. -/
def elseClause : P := .node "else_clause" (seqs [t "else", t ":", r .suite])

/-- What may stand between a parameter's name and its end. -/
def parameterRest (typed : Bool) : P :=
  .seq (if typed then optional (.seq (t ":") (r .typeHint)) else .empty)
    (optional (.seq (t "=") (r .expression)))

/-- One parameter. -/
def parameter (typed : Bool) : P :=
  alts (.seq (.oneOf ["*", "**"]) (.seq identifier (parameterRest typed)))
    [t "*", t "/", .seq identifier (parameterRest typed),
      .seq (inParens (commas (r .target))) (parameterRest typed)]

/-- Items of an import, each maybe under another name. -/
def importList : P := commas (.seq dotted (optional (.seq (t "as") identifier)))

/-- The items of a `with` statement. -/
def withItem : P :=
  .node "with_item" (.seq (r .expression) (optional (.seq (t "as") (r .starred))))

/-- A slice, or an item of a subscript. -/
def subscript : P :=
  .alt
    (.node "slice" (seqs [optional (r .expression), t ":", optional (r .expression),
      optional (.seq (t ":") (optional (r .expression)))]))
    (r .starred)

/-- What may stand between the parentheses of a call. -/
def argument : P :=
  alts
    (.node "keyword_argument" (seqs [identifier, t "=", r .expression]))
    [.seq (.oneOf ["*", "**"]) (r .expression),
      .seq (r .expression) (optional (r .comprehension))]

/-- The handlers and the last clauses of a `try` statement. -/
def handlers : P :=
  let value := .seq (sepBy1 (r .expression) (t ",")) (optional (.seq (t "as") (r .expression)))
  let plain := .node "except_clause" (seqs [t "except", optional value, t ":", r .suite])
  let group := .node "except_group_clause"
    (seqs [t "except", t "*", value, t ":", r .suite])
  let last := .node "finally_clause" (seqs [t "finally", t ":", r .suite])
  .alt (seqs [many1 (.alt group plain), optional elseClause, optional last]) last

/-- What a rule says. -/
def pattern : Rule → P
  | .file => .node "module" (.many (r .statement))
  -- statements
  | .statement => .alt (r .compound) (r .simpleLine)
  | .simpleLine =>
    seqs [sepBy1 (r .simple) (t ";"), optional (t ";"), t "newline"]
  | .suite =>
    alts (.seq (t "indent") (.node "block" (.seq (.many (r .statement)) (t "dedent"))))
      [t "newline", r .simpleLine]
  | .simple =>
    alts (.node "pass_statement" (.oneOf ["pass", "break", "continue"]))
      [.node "return_statement" (.seq (t "return") (optional (r .expressions))),
        .node "import_statement" (.seq (t "import") importList),
        .node "import_from_statement" (seqs [t "from", .many (.oneOf [".", "..."]),
          optional dotted, t "import",
          alts (t "*") [inParens importList, importList]]),
        .node "assert_statement" (.seq (t "assert") (sepBy1 (r .expression) (t ","))),
        .node "delete_statement" (.seq (t "del") (r .expressions)),
        .node "raise_statement" (seqs [t "raise", optional (r .expressions),
          optional (.seq (t "from") (r .expression))]),
        .node "global_statement" (.seq (.oneOf ["global", "nonlocal"])
          (sepBy1 identifier (t ","))),
        .node "type_alias_statement" (seqs [.word "type", identifier,
          optional (r .typeParameters), t "=", r .expression]),
        .node "expression_statement" (.seq (r .assignment) statementEnd),
        .node "expression_statement" (.seq (r .yield_) statementEnd),
        .node "expression_statement" (.seq (r .expressions) statementEnd),
        .node "print_statement" (seqs [.word "print", .alt
          (.seq (t ">>") (sepEndBy1 (r .expression) (t ",")))
          (sepEndBy1 (r .expression) (t ","))]),
        .node "exec_statement" (seqs [.word "exec", .alt (r .strings) identifier,
          optional (.seq (t "in") (sepBy1 (r .expression) (t ",")))])]
  | .assignment =>
    .node "assignment" (.seq (r .targets) (alts
      (seqs [t ":", r .typeHint, optional (.seq (t "=") (r .rightSide))])
      [.seq (t "=") (r .rightSide),
        .seq (.oneOf ["+=", "-=", "*=", "/=", "//=", "%=", "**=", "&=", "|=", "^=", "<<=", ">>=",
          "@="]) (r .rightSide)]))
  | .rightSide => alts (r .assignment) [r .yield_, r .expressions]
  | .target =>
    alts (inParens (commas0 (r .target)))
      [inBrackets (commas0 (r .target)),
        .seq (optional (t "*")) (.seq (r .selected) (.after ["identifier", "]"]))]
  | .targets => commas (alts (.seq (optional (t "*")) (.seq (r .selected) (.after ["identifier", "]"])))
      [r .target])
  | .compound =>
    alts
      (.node "if_statement" (seqs [t "if", r .expression, t ":", r .suite,
        .many (.node "elif_clause" (seqs [t "elif", r .expression, t ":", r .suite])),
        optional elseClause]))
      [.node "for_statement" (seqs [optional (t "async"), t "for", r .targets, t "in",
          r .expressions, t ":", r .suite, optional elseClause]),
        .node "while_statement" (seqs [t "while", r .expression, t ":", r .suite,
          optional elseClause]),
        .node "try_statement" (seqs [t "try", t ":", r .suite, handlers]),
        .node "with_statement" (seqs [optional (t "async"), t "with",
          .alt (seqs [inParens (commas withItem), .ahead (t ":")]) (commas withItem),
          t ":", r .suite]),
        r .function, r .class_,
        .node "decorated_definition" (.seq
          (many1 (seqs [t "@", r .expression, t "newline"])) (.alt (r .function) (r .class_))),
        .node "match_statement" (seqs [.word "match", commas (r .starred), t ":",
          .alt (seqs [t "indent",
            .many (.node "case_clause" (seqs [.word "case",
              commas (.node "case_pattern" (r .casePattern)),
              optional (.node "if_clause" (.seq (t "if") (r .expression))), t ":", r .suite])),
            t "dedent"]) (t "newline")])]
  | .function =>
    .node "function_definition" (seqs [optional (t "async"), t "def", .part "name" identifier,
      optional (r .typeParameters), r .parameters, optional (.seq (t "->") (r .typeHint)),
      t ":", r .suite])
  | .class_ =>
    .node "class_definition" (seqs [t "class", .part "name" identifier,
      optional (r .typeParameters), optional (r .arguments), t ":", r .suite])
  | .parameters => inParens (commas0 (parameter true))
  | .typeParameters =>
    inBrackets (commas (seqs [optional (.oneOf ["*", "**"]), r .expression,
      optional (.seq (t ":") (r .expression)), optional (.seq (t "=") (r .expression))]))
  | .typeHint => .seq (optional (t "*")) (r .expression)
  -- patterns of a case
  | .casePattern =>
    .alt
      (.seq (sepBy1 (r .closedPattern) (t "|")) (optional (.seq (t "as") identifier)))
      (.seq (.oneOf ["*", "**"]) identifier)
  | .closedPattern =>
    let sub := r .casePattern
    alts
      (.seq (optional (t "-")) (.seq (t "number")
        (optional (.seq (.oneOf ["+", "-"]) (t "number")))))
      [r .strings, .oneOf ["None", "True", "False"],
        .seq dotted (optional (inParens (commas0 (.alt (seqs [identifier, t "=", sub]) sub)))),
        inBrackets (commas0 sub), inParens (commas0 sub),
        inBraces (commas0 (.alt (.seq (t "**") identifier)
          (seqs [r .closedPattern, t ":", sub])))]
  -- expressions
  | .expression =>
    alts (r .lambda)
      [.node "named_expression" (seqs [identifier, t ":=", r .expression]),
        .chain "conditional_expression" boolean
          (seqs [t "if", r .expression, t "else", r .expression])]
  | .starred => .alt (.node "list_splat" (.seq (t "*") arithmetic)) (r .expression)
  | .expressions => commas (r .starred)
  | .lambda =>
    .node "lambda" (seqs [t "lambda", commas0 (parameter false), t ":", r .expression])
  | .yield_ =>
    .node "yield" (.seq (t "yield") (.alt (.seq (t "from") (r .expression))
      (optional (r .expressions))))
  | .operand =>
    alts (.node "unary_operator" (.seq (.oneOf ["+", "-", "~"]) (r .operand)))
      [.seq (.seq (optional (t "await")) (r .selected))
        (optional (.seq (t "**") (r .operand)))]
  | .selected =>
    .seq (r .atom) (.many (alts (.seq (t ".") identifier)
      [r .arguments, inBrackets (commas subscript)]))
  | .arguments => inParens (commas0 (.node "argument" argument))
  | .comprehension =>
    let source := .node "for_in_clause" (seqs [optional (t "async"), t "for", r .targets, t "in",
      r .expression])
    .seq source (.many (.alt source (.node "if_clause" (.seq (t "if") (r .expression)))))
  | .atom =>
    let item := .alt (r .starred) (r .yield_)
    alts identifier
      [.oneOf ["number", "True", "False", "None", "..."],
        r .strings,
        inParens (alts (.seq (r .expression) (r .comprehension)) [commas0 item]),
        inBrackets (alts (.seq (r .expression) (r .comprehension)) [commas0 item]),
        inBraces (alts
          (seqs [r .expression, t ":", r .expression, r .comprehension])
          [.seq (r .expression) (r .comprehension),
            commas (.alt (.seq (t "**") (r .expression))
              (.node "pair" (seqs [r .expression, t ":", r .expression]))),
            commas0 item])]
  | .strings =>
    many1 (.alt (t "string")
      (.node "string" (seqs [t "string_start", .many (r .interpolation), t "string_end"])))
  | .interpolation =>
    .node "interpolation" (inBraces (seqs [.alt (r .yield_) (r .expressions), optional (t "="),
      optional (t "type_conversion"), optional (.seq (t ":") (.many (r .interpolation)))]))

end Rule

/-- The grammar. -/
def rules : Rules Rule := ⟨Rule.pattern, Rule.ctorIdx⟩

/-- The concrete tree of a Python file, if it has no syntax error. -/
def parse? (cs : List Char) : Option Concrete := do
  let tokens ← tokens? cs
  match Grammar.parse? rules .file tokens with
  | some [tree] => some tree
  | _ => none

end Maintainability.Python
