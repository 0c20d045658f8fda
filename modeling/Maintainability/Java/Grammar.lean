/-
The grammar of Java, up to version 21. A file is a list of statements and declarations; the kinds
of its nodes are those that the table of languages speaks of, and the names of other nodes are
only for reading. Every label of a `switch` opens an arm of its own.
-/
import Maintainability.Java.Token

namespace Maintainability.Java

open Grammar (Pattern Rules)
open Grammar.Pattern

/-- The rules of the grammar. -/
inductive Rule where
  | file | type | plainType | simpleType | typeArguments | dimensions | mark
  | elementValue | modifiers | expression | conditional | armCondition | operand | selected | primary | lambda
  | arguments | creator | arrayInitializer | switchExpression | switchBlock | casePattern
  | recordPattern | block | statement | localVariable | declarators | declaratorId
  | parameters | typeParameters | declaration | classBody | member | method | annotationBody
  | catches | finally_ | tryStatement | forStatement | moduleDirective
  deriving DecidableEq, Repr

namespace Rule

/-- The kinds of the primitive types and of `void`. -/
def primitives : List String :=
  ["int", "long", "short", "byte", "char", "float", "double", "boolean", "void"]

/-- The kinds of literals. -/
def literals : List String :=
  ["number_literal", "string_literal", "character_literal", "true", "false", "null"]

/-- The words that modify a declaration wherever they stand. -/
def modifierWords : List String :=
  ["public", "protected", "private", "abstract", "static", "final", "strictfp", "default",
    "synchronized", "native", "transient", "volatile"]

/-- The signs of assignment that are one token. -/
def assignments : List String :=
  ["=", "+=", "-=", "*=", "/=", "&=", "|=", "^=", "%=", "<<="]

/-- Reserved words that cannot stand for a name even where nothing else fits. -/
def neverNames : List String := ["instanceof", "this", "super", "new", "class"]

/-- Reserved words that can stand for a name where nothing else fits. -/
def lastResortNames : List String := keywords.filter (!neverNames.contains ·)

private abbrev P := Pattern Rule

private def t (kind : String) : P := .token kind
private def r (rule : Rule) : P := .rule rule

/-- A pattern in parentheses. -/
def inParens (p : P) : P := seqs [t "(", p, t ")"]

/-- A pattern in braces. -/
def inBraces (p : P) : P := seqs [t "\x7b", p, t "\x7d"]

/-- An identifier. -/
def identifier : P := t "identifier"

/-- A name that is being declared. -/
def declared : P := .part "name" (.alt identifier (.oneOf lastResortNames))

/-- Types after `extends`, `implements` and the like. -/
def typeList : P := sepBy1 (r .type) (t ",")

/-- Signs that follow each other without space. -/
def glued : List String → P
  | [] => .empty
  | [s] => t s
  | s :: rest => .seq (t s) (.seq .tight (glued rest))

/-- A sign of assignment. -/
def assign : P := alts (.oneOf assignments) [glued [">", ">", ">="], glued [">", ">="]]

/-- One level of binary operators over the level below. -/
def level (sign below : P) : P :=
  .chain "binary_expression" below (.seq (.part "operator" sign) below)

/-- The binary operators below the comparisons. -/
def arithmetic : P :=
  let product := level (.oneOf ["*", "/", "%"]) (r .operand)
  let sum := level (.oneOf ["+", "-"]) product
  let shift := alts (t "<<")
    [.seq (glued [">", ">", ">"]) (.unless (.seq .tight (t ">="))),
      .seq (glued [">", ">"]) (.unless (.seq .tight (.oneOf [">", ">="])))]
  level shift sum

/-- All binary operators. -/
def binary : P :=
  let isInstance := .chain "instanceof_expression" arithmetic
    (seqs [t "instanceof", optional (t "final"),
      .alt (r .recordPattern) (.seq (r .type) (optional identifier))])
  let greater := .seq (t ">") (.unless (.seq .tight (.oneOf [">", ">="])))
  let comparison := level (.alt (.oneOf ["<", "<=", ">="]) greater) isInstance
  let equality := level (.oneOf ["==", "!="]) comparison
  let bits := level (t "|") (level (t "^") (level (t "&") equality))
  level (t "||") (level (t "&&") bits)

/-- A word reserved in one place only, standing there as a modifier of a type declaration. -/
def sealing : P :=
  .seq (.alt (seqs [.word "non", t "-", .tight, .word "sealed"]) (.word "sealed"))
    (.ahead (.alt (.oneOf ("class" :: "interface" :: "@" :: modifierWords))
      (.seq (.word "record") identifier)))

/-- The label of an arm, without the sign behind it. -/
def caseLabel : P :=
  .node "switch_label" (.alt
    (seqs [t "case",
      sepBy1 (alts (.node "pattern" (r .casePattern))
        [t "default", .node "expression" (r .armCondition)]) (t ","),
      optional (.node "guard" (.seq (.word "when") (r .armCondition)))])
    (t "default"))

/-- A qualified name. -/
def qualified : P := sepBy1 identifier (t ".")

/-- A formal parameter: of the method's receiver, of variable arity, or plain. -/
def parameter : P :=
  alts
    (seqs [.many (r .mark), r .plainType, .many (.seq identifier (t ".")), t "this"])
    [seqs [optional (r .modifiers), r .plainType, .many (r .mark), t "...",
        .many (r .mark), r .declaratorId],
      .node "formal_parameter" (seqs [optional (r .modifiers), r .plainType, r .declaratorId])]

/-- The heading of a type declaration: what it extends, implements and permits. -/
def supertypes : P :=
  .many (.alt (.seq (.oneOf ["extends", "implements"]) typeList)
    (.seq (.word "permits") typeList))

/-- Declarations of types, packages, imports and modules. -/
def declarations : P :=
  alts
    (.node "class_declaration" (seqs [optional (r .modifiers), t "class", declared,
      optional (r .typeParameters), supertypes, .part "body" (r .classBody)]))
    [.node "interface_declaration" (seqs [optional (r .modifiers), t "interface", declared,
        optional (r .typeParameters), supertypes, .part "body" (r .classBody)]),
      .node "enum_declaration" (seqs [optional (r .modifiers), t "enum", declared, supertypes,
        inBraces (seqs [
          sepEndBy (.node "enum_constant" (seqs [optional (r .modifiers), declared,
            optional (r .arguments), optional (r .classBody)])) (t ","),
          optional (.seq (t ";") (.many (r .member)))])]),
      .node "record_declaration" (seqs [optional (r .modifiers), .word "record", declared,
        optional (r .typeParameters), r .parameters, supertypes, .part "body" (r .classBody)]),
      .node "annotation_type_declaration" (seqs [optional (r .modifiers), t "@interface", declared,
        r .annotationBody]),
      .node "package_declaration" (seqs [.many (r .mark), t "package", qualified, t ";"]),
      .node "import_declaration" (seqs [t "import", optional (t "static"), qualified,
        optional (.seq (t ".") (t "*")), t ";"]),
      .node "module_declaration" (seqs [.many (r .mark), optional (.word "open"),
        .word "module", qualified, inBraces (.many (r .moduleDirective))])]

/-- Statements that begin with a word of their own. -/
def keywordStatement : P :=
  alts (r .block)
    [t ";",
      .node "if_statement" (seqs [t "if", inParens (r .expression), r .statement,
        optional (.seq (t "else") (r .statement))]),
      .node "while_statement" (seqs [t "while", inParens (r .expression), r .statement]),
      r .forStatement,
      .node "do_statement" (seqs [t "do", r .statement, t "while", inParens (r .expression),
        t ";"]),
      r .tryStatement,
      .node "return_statement" (seqs [t "return", optional (r .expression), t ";"]),
      .node "throw_statement" (seqs [t "throw", r .expression, t ";"]),
      .node "break_statement" (seqs [t "break", optional identifier, t ";"]),
      .node "continue_statement" (seqs [t "continue", optional identifier, t ";"]),
      .node "assert_statement" (seqs [t "assert", r .expression,
        optional (.seq (t ":") (r .expression)), t ";"]),
      .node "synchronized_statement" (seqs [t "synchronized", inParens (r .expression),
        r .block]),
      .seq (r .switchExpression) (.unless (.oneOf [".", "["]))]

/-- What a rule says. -/
def pattern : Rule → P
  | .file => .node "program" (.many (.alt (r .statement) (r .method)))
  -- types
  | .type => .seq (.many (r .mark)) (r .plainType)
  | .plainType => .seq (r .simpleType) (optional (r .dimensions))
  | .simpleType =>
    .alt (.oneOf primitives)
      (.seq (.seq identifier (optional (r .typeArguments)))
        (.many (seqs [t ".", .many (r .mark), identifier, optional (r .typeArguments)])))
  | .typeArguments =>
    seqs [t "<",
      sepBy (.alt
        (seqs [.many (r .mark), t "?",
          optional (.seq (.oneOf ["extends", "super"]) (r .type))])
        (r .type)) (t ","),
      t ">"]
  | .dimensions => many1 (seqs [.many (r .mark), t "[", t "]"])
  -- annotations and modifiers
  | .mark =>
    .node "annotation" (seqs [t "@", qualified, optional (inParens (alts
      (sepBy1 (.node "element_value_pair" (seqs [identifier, t "=", r .elementValue])) (t ","))
      [r .elementValue, .empty]))])
  | .elementValue =>
    alts (r .mark) [inBraces (alts (t ",") [sepEndBy (r .elementValue) (t ",")]),
      r .expression]
  | .modifiers =>
    .node "modifiers" (many1 (alts (r .mark)
      [sealing, .seq (.oneOf modifierWords) (.unless (.oneOf [":", "->"]))]))
  -- expressions
  | .expression =>
    alts (r .lambda)
      [.node "assignment_expression" (seqs [r .selected, .after ["identifier", "]", "this"],
        .part "operator" assign, r .expression]),
      r .conditional]
  | .conditional =>
    .chain "ternary_expression" binary
      (seqs [t "?", r .expression, t ":", r .expression])
  -- before the arrow of an arm: a name in front of it does not begin a function
  | .armCondition =>
    .chain "ternary_expression" binary
      (seqs [t "?", r .expression, t ":", r .armCondition])
  | .operand =>
    alts
      (.node "unary_expression" (.seq (.oneOf ["+", "-", "!", "~", "++", "--"]) (r .operand)))
      [.node "cast_expression" (.seq (inParens (.seq (.oneOf primitives)
          (.seq (optional (r .dimensions)) (.many (.seq (t "&") (r .type))))))
          (.alt (r .lambda) (r .operand))),
        .node "cast_expression" (.seq (inParens (sepBy1 (r .type) (t "&")))
          (.seq (.unless (.oneOf ["+", "-", "++", "--"])) (.alt (r .lambda) (r .operand)))),
        .seq (r .selected) (.many (.oneOf ["++", "--"]))]
  | .selected =>
    .seq (r .primary) (.many (alts
      (seqs [t ".", optional (r .typeArguments), identifier, optional (r .arguments)])
      [seqs [t ".", t "this"],
        seqs [t ".", optional (r .typeArguments), t "super",
          .alt (r .arguments) (.ahead (.oneOf [".", "::"]))],
        seqs [t ".", t "new", r .creator],
        seqs [t ".", t "class"],
        seqs [t ".", t "string_literal"],
        seqs [t "[", r .expression, t "]"],
        seqs [t "::", optional (r .typeArguments), .alt identifier (t "new")]]))
  | .primary =>
    alts (.oneOf literals)
      [.seq (r .plainType) (.ahead (.alt (t "::") (.seq (t ".") (t "class")))),
        .seq identifier (optional (r .arguments)),
        .seq (t "this") (optional (r .arguments)),
        .seq (t "super") (.alt (r .arguments) (.ahead (.oneOf [".", "::"]))),
        seqs [r .typeArguments, .oneOf ["this", "super"], r .arguments],
        .node "parenthesized_expression" (inParens (r .expression)),
        .seq (t "new") (r .creator),
        r .switchExpression]
  | .lambda =>
    .node "lambda_expression" (seqs [
      alts identifier [inParens (sepBy identifier (t ",")), r .parameters],
      t "->", .alt (r .block) (r .expression)])
  | .arguments => inParens (sepBy (.node "argument" (r .expression)) (t ","))
  | .creator =>
    seqs [.many (r .mark), optional (r .typeArguments), .many (r .mark), r .simpleType,
      alts (.seq (r .arguments) (optional (r .classBody)))
        [.seq (r .dimensions) (r .arrayInitializer),
          .seq (many1 (seqs [.many (r .mark), t "[", r .expression, t "]"]))
            (optional (r .dimensions))]]
  | .arrayInitializer =>
    inBraces (.alt (t ",") (sepEndBy (.alt (r .arrayInitializer) (r .expression)) (t ",")))
  -- switches
  | .switchExpression =>
    .node "switch_expression" (seqs [t "switch", inParens (r .expression), r .switchBlock])
  | .switchBlock =>
    inBraces (.alt
      (.seq (many1 (.node "switch_rule" (seqs [caseLabel, t "->",
          alts (r .block)
            [.node "throw_statement" (seqs [t "throw", r .expression, t ";"]),
              .node "expression_statement" (.seq (r .expression) (t ";"))]])))
        (.ahead (t "\x7d")))
      (.many (.node "switch_block_statement_group" (seqs [caseLabel, t ":",
        .many (.seq (.unless (.oneOf ["case", "default"])) (r .statement))]))))
  | .casePattern =>
    .alt (r .recordPattern)
      (seqs [optional (t "final"), r .plainType, identifier,
        .ahead (.alt (.oneOf [",", ":", "->"]) (.word "when"))])
  | .recordPattern =>
    seqs [.seq identifier (optional (r .typeArguments)),
      inParens (sepBy (.alt (r .recordPattern)
        (.alt (.seq (r .type) identifier) (.word "_"))) (t ","))]
  -- statements
  | .block => .node "block" (inBraces (.many (r .statement)))
  | .statement =>
    alts keywordStatement
      [.node "yield_statement" (seqs [.word "yield",
          .unless (.oneOf ([".", "[", ")", ";", "->", "::", ":"] ++ assignments)), r .expression,
          t ";"]),
        .node "labeled_statement" (seqs [identifier, t ":", r .statement]),
        r .declaration,
        r .localVariable,
        .node "expression_statement" (.seq (r .expression) (t ";"))]
  | .localVariable =>
    .node "local_variable_declaration" (seqs [optional (r .modifiers), r .plainType,
      r .declarators, t ";"])
  | .declarators =>
    sepBy1 (.node "variable_declarator" (.seq (r .declaratorId)
      (optional (.seq (t "=") (.alt (r .arrayInitializer) (r .expression)))))) (t ",")
  | .declaratorId => .seq declared (optional (r .dimensions))
  | .forStatement =>
    .alt
      (.node "enhanced_for_statement" (seqs [t "for", t "(", optional (r .modifiers),
        r .plainType, r .declaratorId, t ":", r .expression, t ")", r .statement]))
      (.node "for_statement" (seqs [t "for", t "(",
        .alt (r .localVariable) (.seq (sepBy (r .expression) (t ",")) (t ";")),
        optional (r .expression), t ";", sepBy (r .expression) (t ","), t ")", r .statement]))
  | .catches =>
    .node "catch_clause" (seqs [t "catch", t "(", optional (r .modifiers),
      sepBy1 (r .plainType) (t "|"), r .declaratorId, t ")", r .block])
  | .finally_ => .node "finally_clause" (.seq (t "finally") (r .block))
  | .tryStatement =>
    .alt
      (.node "try_with_resources_statement" (seqs [t "try", t "(",
        sepEndBy1 (.node "resource" (.alt
          (seqs [optional (r .modifiers), r .plainType, r .declaratorId, t "=", r .expression])
          (r .selected))) (t ";"),
        t ")", r .block, .many (r .catches), optional (r .finally_)]))
      (.node "try_statement" (seqs [t "try", r .block,
        .alt (.seq (many1 (r .catches)) (optional (r .finally_))) (r .finally_)]))
  -- declarations
  | .declaration => declarations
  | .parameters => .node "formal_parameters" (inParens (sepBy parameter (t ",")))
  | .typeParameters =>
    seqs [t "<",
      sepBy1 (seqs [.many (r .mark), identifier,
        optional (.seq (t "extends") (sepBy1 (r .type) (t "&")))]) (t ","),
      t ">"]
  | .classBody => .node "class_body" (inBraces (.many (r .member)))
  | .member =>
    alts (t ";")
      [.node "static_initializer" (.seq (t "static") (r .block)),
        r .block,
        r .declaration,
        r .method,
        .node "field_declaration" (seqs [optional (r .modifiers), r .plainType, r .declarators,
          t ";"]),
        .node "constructor_declaration" (seqs [optional (r .modifiers),
          optional (r .typeParameters), declared, r .parameters,
          optional (.seq (t "throws") typeList), r .block]),
        .node "compact_constructor_declaration" (seqs [optional (r .modifiers), declared,
          r .block])]
  | .method =>
    .node "method_declaration" (seqs [optional (r .modifiers),
      optional (.seq (r .typeParameters) (.many (r .mark))), r .plainType, declared,
      r .parameters, optional (r .dimensions), optional (.seq (t "throws") typeList),
      .alt (r .block) (t ";")])
  | .annotationBody =>
    inBraces (.many (alts (t ";")
      [r .declaration,
        .node "annotation_type_element_declaration" (seqs [optional (r .modifiers), r .plainType,
          declared, t "(", t ")", optional (r .dimensions),
          optional (.seq (t "default") (r .elementValue)), t ";"]),
        .node "constant_declaration" (seqs [optional (r .modifiers), r .plainType,
          r .declarators, t ";"])]))
  | .moduleDirective =>
    alts
      (seqs [.word "requires", .many (.alt (t "static")
        (.seq (.word "transitive") (.ahead (.alt (t "static") identifier)))), qualified, t ";"])
      [seqs [.alt (.word "exports") (.word "opens"), qualified,
          optional (.seq (.word "to") (sepBy1 qualified (t ","))), t ";"],
        seqs [.word "uses", qualified, t ";"],
        seqs [.word "provides", qualified, .word "with", sepBy1 qualified (t ","), t ";"]]

end Rule

/-- The grammar. -/
def rules : Rules Rule := ⟨Rule.pattern, Rule.ctorIdx⟩

/-- The concrete tree of a Java file, if it has no syntax error. -/
def parse? (cs : List Char) : Option Concrete := do
  let tokens ← tokens? cs
  match Grammar.parse? rules .file tokens with
  | some [tree] => some tree
  | _ => none

end Maintainability.Java
