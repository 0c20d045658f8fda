/-
Marked-up text, as far as its markup is documented. A tag stands in square brackets and begins with
a small letter, `#`, `@` or, if it closes, `/`; a backslash before it makes it plain. A report has no
styles, so all that is left of marked-up text is its plain part; but a tag that closes nothing is
still a fault. A terminal may know more than that, such as codes for emoji and other spellings of a
style.
-/
import Maintainability.Error

namespace Maintainability.Markup

/-- A piece of marked-up text. -/
inductive Piece where
  /-- Plain characters. -/
  | plain (cs : List Char)
  /-- A tag, by the characters between its brackets, and where it stands. -/
  | tag (position : Nat) (body : List Char)
  deriving Repr, DecidableEq

/-- A character that may begin a tag. -/
def isTagStart (c : Char) : Bool := ('a' ≤ c && c ≤ 'z') || c == '#' || c == '/' || c == '@'

/-- The rest of a tag up to its closing bracket, and what follows. -/
def tagEnd? : List Char → Option (List Char × List Char)
  | [] => none
  | c :: cs =>
    if c = ']' then some ([], cs)
    else if c = '[' then none
    else (tagEnd? cs).map fun (body, rest) => (c :: body, rest)

/-- The tag with which some characters begin, and what follows. -/
def tag? : List Char → Option (List Char × List Char)
  | '[' :: c :: cs => if isTagStart c then tagEnd? (c :: cs) else none
  | _ => none

/-- The backslashes with which some characters begin, the tag behind them, and what follows. -/
def slashedTag? (cs : List Char) : Option (Nat × List Char × List Char) :=
  (tag? (cs.dropWhile (· = '\\'))).map fun (body, rest) =>
    ((cs.takeWhile (· = '\\')).length, body, rest)

theorem length_tagEnd? {cs body rest : List Char} (h : tagEnd? cs = some (body, rest)) :
    rest.length < cs.length := by
  induction cs generalizing body rest with
  | nil => simp [tagEnd?] at h
  | cons c cs ih =>
    simp only [tagEnd?] at h
    split at h
    · simp only [Option.some.injEq, Prod.mk.injEq] at h
      simp [← h.2]
    · split at h
      · simp at h
      · obtain ⟨⟨b, r⟩, hb, hr⟩ := Option.map_eq_some_iff.1 h
        simp only [Prod.mk.injEq] at hr
        have := ih hb
        simp only [List.length_cons, ← hr.2]
        omega

theorem length_tag? {cs body rest : List Char} (h : tag? cs = some (body, rest)) :
    rest.length < cs.length := by
  unfold tag? at h
  split at h
  · split at h
    · have := length_tagEnd? h
      simp only [List.length_cons] at this ⊢
      omega
    · simp at h
  · simp at h

theorem length_slashedTag? {cs : List Char} {n : Nat} {body rest : List Char}
    (h : slashedTag? cs = some (n, body, rest)) : rest.length < cs.length := by
  obtain ⟨⟨b, r⟩, hb, hr⟩ := Option.map_eq_some_iff.1 h
  simp only [Prod.mk.injEq] at hr
  have h₁ := length_tag? hb
  have h₂ := (List.dropWhile_suffix (l := cs) fun c => decide (c = '\\')).length_le
  rw [← hr.2.2]
  omega

/-- Puts plain characters, the last one first, in front of pieces. -/
def flush (plain : List Char) (rest : List Piece) : List Piece :=
  if plain.isEmpty then rest else .plain plain.reverse :: rest

/-- The pieces of a tag behind so many backslashes: two of them stand for one, and an odd one makes
the tag plain. -/
def tagPieces (position slashes : Nat) (body : List Char) : List Piece :=
  flush (List.replicate (slashes / 2) '\\')
    [if slashes % 2 = 1 then .plain ('[' :: body ++ [']']) else .tag (position + slashes) body]

/-- Cuts marked-up text into pieces, after plain characters, the last one first. -/
def cut (position : Nat) (plain : List Char) (cs : List Char) : List Piece :=
  match h : slashedTag? cs with
  | some (slashes, body, rest) =>
    flush plain (tagPieces position slashes body ++
      cut (position + slashes + body.length + 2) [] rest)
  | none =>
    match cs with
    | [] => flush plain []
    | c :: cs => cut (position + 1) (c :: plain) cs
termination_by cs.length
decreasing_by
  · exact length_slashedTag? h
  · simp

/-- The pieces of marked-up text. -/
def pieces (cs : List Char) : List Piece := cut 0 [] cs

/-- Plain characters without the backslashes before opening brackets. -/
def unescape : List Char → List Char
  | '\\' :: '[' :: cs => '[' :: unescape cs
  | c :: cs => c :: unescape cs
  | [] => []

/-- Controls that a terminal would act on. -/
def isActive (c : Char) : Bool := c.toNat == 7 || c.toNat == 8 || (11 ≤ c.toNat && c.toNat ≤ 13)

/-- The name of a tag: what stands before an equals sign. -/
def tagName (body : List Char) : List Char := body.takeWhile (· ≠ '=')

/-- Names that have a short form. -/
def shortForms : List (String × String) :=
  [("b", "bold"), ("d", "dim"), ("i", "italic"), ("u", "underline"), ("r", "reverse"),
    ("c", "conceal"), ("s", "strike"), ("uu", "underline2"), ("o", "overline")]

/-- A name as it is compared: in small letters, without blanks around it and in its long form. -/
def folded (name : List Char) : List Char :=
  let name := Characters.lower (Characters.trim name)
  match shortForms.find? fun (short, _) => short.toList == name with
  | some (_, long) => long.toList
  | none => name

/-- A closing tag without the tag that it closes. -/
def unmatched (position : Nat) (body : List Char) : Fault :=
  ⟨.markup, "closing tag '[" ++ String.ofList body ++ "]' at position " ++ toString position ++
    " doesn't match any open tag"⟩

/-- A closing tag where no tag is open. -/
def nothingOpen (position : Nat) : Fault :=
  ⟨.markup, "closing tag '[/]' at position " ++ toString position ++ " has nothing to close"⟩

/-- The tags that are open behind a tag, the innermost first. -/
def step (isOpen : List (List Char)) (position : Nat) (body : List Char) :
    Except Fault (List (List Char)) :=
  match tagName body with
  | '/' :: name =>
    let name := folded name
    if name.isEmpty then
      match isOpen with
      | [] => .error (nothingOpen position)
      | _ :: outer => .ok outer
    else if isOpen.contains name then .ok (isOpen.erase name)
    else .error (unmatched position body)
  | name => .ok (folded name :: isOpen)

/-- The plain part of pieces inside open tags. -/
def plainOf (isOpen : List (List Char)) : List Piece → Except Fault (List Char)
  | [] => .ok []
  | .plain cs :: rest => do
    let more ← plainOf isOpen rest
    pure ((unescape cs).filter (!isActive ·) ++ more)
  | .tag position body :: rest => do
    let isOpen ← step isOpen position body
    plainOf isOpen rest

/-- The plain part of marked-up text. -/
def plain (cs : List Char) : Except Fault (List Char) := plainOf [] (pieces cs)

end Maintainability.Markup
