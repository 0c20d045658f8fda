/-
Which files are sources. A file counts if its name has a suffix of the language, no directory above
it is passed over, nothing in its path is hidden, no pattern excludes it and it is not too large.
Names inside an archive must stay inside it. All these names are free of surrogates, as an archive
decodes its names to characters; patterns may hold them.
-/
import Maintainability.Config
import Maintainability.Log
import Maintainability.Path.Glob
import Maintainability.Syntax.Language
import Maintainability.Text.Utf8

namespace Maintainability.Intake

/-- The language of a configuration. -/
def languageOf (c : Config) : Except Failure Language :=
  match c.get .language with
  | .text t =>
    match t.toString?.bind Language.find? with
    | some l => .ok l
    | none =>
      .error (.error (.unsupportedLanguage (Value.text t).plainText Language.names))
  | v => .error (.fault ⟨.attribute, "'" ++ v.kindName ++ "' object has no attribute 'lower'"⟩)

/-! ## Names inside archives -/

/-- The path of a member inside an archive, with forward slashes; it must stay inside. -/
def memberPath (name : String) : Except Error Path :=
  let p := Path.ofChars (name.toList.map fun c => if c = '\\' then '/' else c)
  match p.parts with
  | [] => .error (.security "empty member name in archive" (some name))
  | first :: _ =>
    if p.isAbsolute ∨ first.contains ':' then
      .error (.security "absolute path in archive" (some name))
    else if p.segments.contains ['.', '.'] then
      .error (.security "path traversal in archive" (some name))
    else .ok p

/-! ## Patterns -/

/-- A text that is a single slash. -/
def isSlash : Value → Bool
  | .text t => t == [Glob.slash]
  | _ => false

/-- The patterns that a value stands for: the items of a list, the characters of a text, the names
of a table. -/
def patternsOf : Value → Except Fault (List Value)
  | .list vs => .ok vs
  | .text t => .ok (t.map fun c => .text [c])
  | .table ms => .ok (ms.map fun (k, _) => .text k)
  | v => .error ⟨.type, "'" ++ v.kindName ++ "' object is not iterable"⟩

/-- What happens to a value that is no text when it is read as a pattern: its first item is looked at, and a list is
searched for a slash. A value that counts as false is no pattern at all. -/
def misuse (v : Value) : Fault :=
  if v.isFalsy then ⟨.value, "empty pattern"⟩
  else
    match v with
    | .table _ => ⟨.key, "0"⟩
    | .list (first :: rest) =>
      if isSlash first then ⟨.attribute, "'list' object has no attribute 'lstrip'"⟩
      else if rest.any isSlash then ⟨.attribute, "'list' object has no attribute 'split'"⟩
      else ⟨.type, "intern() argument must be str, not list"⟩
    | v => ⟨.type, "'" ++ v.kindName ++ "' object is not subscriptable"⟩

/-- A pattern that a path matches. -/
def isMatch (p : Path) : Value → Except Fault Bool
  | .text t =>
    match Glob.matches? (.ofText t) p with
    | some b => .ok b
    | none => .error ⟨.value, "empty pattern"⟩
  | v => .error (misuse v)

/-- One of some patterns matches a path; later ones are not looked at. -/
def anyMatch (p : Path) : List Value → Except Fault Bool
  | [] => .ok false
  | v :: vs => do
    if ← isMatch p v then pure true else anyMatch p vs

/-- A path that the patterns exclude. -/
def isExcluded (p : Path) (patterns : Value) : Except Fault Bool := do
  anyMatch p (← patternsOf patterns)

/-! ## Selection -/

/-- A segment that is hidden. -/
def isHidden (segment : List Char) : Bool := segment.head? == some '.'

/-- The record of a file that is too large. -/
def tooLarge (path : String) (size : Int) : Log.Record :=
  ⟨.debug, "Skipping " ++ path ++ ": " ++ toString size ++ " bytes exceeds max_file_size_mb"⟩

/-- Whether a file counts, and a record if its size alone decides. -/
def accepts (c : Config) (l : Language) (p : Path) (size : Int) :
    Except Fault (Bool × List Log.Record) :=
  if !l.matchesName p.name then .ok (false, [])
  else if p.parts.dropLast.any fun s => l.skippedDirectories.any (·.toList == s) then
    .ok (false, [])
  else if (c.get .allowHiddenFiles).isFalsy ∧ p.parts.any isHidden then .ok (false, [])
  else
    match isExcluded p (c.get .excludePatterns) with
    | .error f => .error f
    | .ok true => .ok (false, [])
    | .ok false =>
      match c.maxFileBytes with
      | .error f => .error f
      | .ok limit => if limit < size then .ok (false, [tooLarge p.text size]) else .ok (true, [])

/-- The text of a file in UTF-8, or a record that it has none. -/
def decode (path : String) (bytes : List UInt8) : Option Text × List Log.Record :=
  match Utf8.decodeMarked bytes with
  | .ok cs => (some (.ofChars cs), [])
  | .error e =>
    (none, [⟨.warning, "Skipping " ++ path ++ ": not valid UTF-8 (" ++ e.why.message ++
      " at byte " ++ toString e.start ++ ")"⟩])

end Maintainability.Intake
