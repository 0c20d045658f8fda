/-
Languages. All that the analyzer knows about a language is one entry of this table: the suffixes of
its files, the kinds of concrete nodes that declare methods and that carry each tag, and the
directories in which sources are not looked for.
-/
import Maintainability.Text

namespace Maintainability

/-- What the analyzer knows about a language. -/
structure Language where
  /-- The name. -/
  name : String
  /-- The suffixes of its files, in lower case. -/
  extensions : List String
  /-- Kinds of nodes that declare a method. -/
  methodKinds : List String := []
  /-- Kinds of nodes that branch. -/
  branchKinds : List String := []
  /-- Kinds of nodes that loop. -/
  loopKinds : List String := []
  /-- Kinds of nodes that handle exceptions. -/
  handlerKinds : List String := []
  /-- Kinds of conditional expressions. -/
  ternaryKinds : List String := []
  /-- Kinds of nodes with an operator that may be a short-circuit one. -/
  logicalKinds : List String := []
  /-- Operators of conjunction. -/
  andOperators : List String := []
  /-- Operators of disjunction. -/
  orOperators : List String := []
  /-- Kinds of the arms of a multi-way branch. -/
  caseArmKinds : List String := []
  /-- Kinds of the labels of an arm; the values of a label are its children. -/
  caseLabelKinds : List String := []
  /-- Kinds of values that stand on the arm itself. -/
  caseValueKinds : List String := []
  /-- Kinds of children of a label that are not values. -/
  nonValueKinds : List String := []
  /-- Values that stand for the arm of last resort. -/
  defaultLabels : List String := []
  /-- Kinds of guards; one directly under an arm is part of the arm. -/
  guardKinds : List String := []
  /-- Kinds of comments. -/
  commentKinds : List String := []
  /-- Directories that are passed over. -/
  skippedDirectories : List String :=
    ["vendor", "node_modules", "venv", ".venv", "__pycache__", ".git", "dist", "build", "target",
      "out", ".gradle", ".idea"]
  deriving Repr, Inhabited

namespace Language

/-- Java. -/
def java : Language where
  name := "java"
  extensions := [".java"]
  methodKinds := ["method_declaration"]
  branchKinds := ["if_statement"]
  loopKinds := ["do_statement", "enhanced_for_statement", "for_statement", "while_statement"]
  handlerKinds := ["catch_clause"]
  ternaryKinds := ["ternary_expression"]
  logicalKinds := ["binary_expression"]
  andOperators := ["&&"]
  orOperators := ["||"]
  caseArmKinds := ["switch_block_statement_group", "switch_rule"]
  caseLabelKinds := ["switch_label"]
  nonValueKinds := ["block_comment", "comment", "guard", "line_comment"]
  defaultLabels := ["default"]
  commentKinds := ["block_comment", "comment", "line_comment"]

/-- Python. -/
def python : Language where
  name := "python"
  extensions := [".py"]
  methodKinds := ["function_definition"]
  branchKinds := ["elif_clause", "if_clause", "if_statement"]
  loopKinds := ["for_in_clause", "for_statement", "while_statement"]
  handlerKinds := ["except_clause", "except_group_clause"]
  ternaryKinds := ["conditional_expression"]
  logicalKinds := ["boolean_operator"]
  andOperators := ["and"]
  orOperators := ["or"]
  caseArmKinds := ["case_clause"]
  caseValueKinds := ["case_pattern"]
  defaultLabels := ["_"]
  guardKinds := ["if_clause"]
  commentKinds := ["comment"]

/-- All languages, by name. -/
def all : List Language := [java, python]

/-- The names of all languages. -/
def names : List String := all.map (·.name)

/-- The language with a name, capital letters or not. -/
def find? (name : String) : Option Language :=
  all.find? fun l => l.name.toList == Characters.lower name.toList

/-- The part of a file name from its last dot on, in lower case; empty when the dot is the first
or the last character. -/
def suffixOf (fileName : List Char) : List Char :=
  let tail := (fileName.reverse.takeWhile (· ≠ '.')).reverse
  if tail.isEmpty ∨ fileName.length ≤ tail.length + 1 then []
  else Characters.lower ('.' :: tail)

/-- A file name with one of the language's suffixes. -/
def matchesName (l : Language) (fileName : List Char) : Bool :=
  l.extensions.any fun e => e.toList == suffixOf fileName

end Language

end Maintainability
