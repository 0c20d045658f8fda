/-
From the text of a file to its methods. A text that cannot be written as UTF-8, a language without
a grammar and a tree with an error are the three reasons to refuse a file; otherwise the methods
are those of its concrete tree.
-/
import Maintainability.Java.Grammar
import Maintainability.Python.Grammar
import Maintainability.Syntax.Method

namespace Maintainability

/-- What a grammar made of a file. -/
structure Parsed where
  /-- The concrete tree. -/
  root : Concrete
  /-- The tree has an error somewhere. -/
  hasError : Bool
  deriving Inhabited

/-- A grammar in use: from the bytes of a file to a tree, if there is a grammar at all. -/
abbrev Recognizer := List UInt8 → Option Parsed

/-- The recognizer of a list of characters; a text that it refuses has an error of no known
place. -/
def Recognizer.ofParser (parse? : List Char → Option Concrete) : Recognizer := fun bytes =>
  some (match parse? (Utf8.decodeLossy bytes) with
    | some root => ⟨root, false⟩
    | none => ⟨.node "file" true false none 0 bytes.length [], true⟩)

namespace Language

/-- The recognizers, by the exact names of their languages. -/
def recognizers : List (String × Recognizer) :=
  [("java", .ofParser Java.parse?), ("python", .ofParser Python.parse?)]

/-- The recognizer of the language with a name. -/
def recognizer (name : String) : Recognizer :=
  match recognizers.find? (·.1 == name) with
  | some (_, g) => g
  | none => fun _ => none

/-- The methods of a text, or the reason for which it is refused. -/
def parse (l : Language) (grammar : Recognizer) (text : Text) : Except String (List Method) :=
  match Utf8.encodeText text with
  | .error _ => .error "encoding error: surrogates not allowed"
  | .ok bytes =>
    match grammar bytes with
    | none => .error "no grammar available"
    | some parsed =>
      if parsed.hasError then .error (parsed.root.describeError bytes)
      else .ok (parsed.root.methods l bytes)

end Language

end Maintainability
