/-
The words of a command line. A word that begins with a hyphen names options: one with a long name,
its value behind an equals sign or in the next word, or several with short names, the last of which
may take the rest of the word as its value. Two hyphens alone end the options.
-/
namespace Maintainability.Command

/-- An option. -/
structure Switch where
  /-- The long name, without its hyphens. -/
  long : String
  /-- The short name. -/
  short : Option Char := none
  /-- It has a value. -/
  hasValue : Bool := true
  deriving DecidableEq, Repr

/-- What words say: the options with their values, in order, and the other words. -/
structure Said where
  /-- The options, by their long names; the value of one without a value is empty. -/
  options : List (String × String) := []
  /-- The other words. -/
  others : List String := []
  deriving DecidableEq, Repr, Inhabited

namespace Said

/-- Puts an option in front. -/
def withOption (s : Said) (name value : String) : Said :=
  { s with options := (name, value) :: s.options }

/-- Puts another word in front. -/
def withOther (s : Said) (word : String) : Said := { s with others := word :: s.others }

/-- The value of an option, the last one if it was given several times. -/
def get? (s : Said) (name : String) : Option String :=
  (s.options.reverse.find? (·.1 == name)).map (·.2)

/-- An option was given. -/
def has (s : Said) (name : String) : Bool := (s.get? name).isSome

end Said

/-- What a word with options needs: nothing more, or the next word for the option named. -/
inductive Need where
  | nothing
  | value (name : String)

/-- The options of a word of short names. -/
def shorts (switches : List Switch) : List Char → Option (List (String × String) × Need)
  | [] => some ([], .nothing)
  | c :: cs => do
    let s ← switches.find? (·.short == some c)
    if s.hasValue then
      if cs.isEmpty then pure ([], .value s.long)
      else pure ([(s.long, String.ofList cs)], .nothing)
    else
      let (more, need) ← shorts switches cs
      pure ((s.long, "") :: more, need)

/-- The option of a word with a long name. -/
def long (switches : List Switch) (body : List Char) : Option (List (String × String) × Need) := do
  let name := String.ofList (body.takeWhile (· ≠ '='))
  let s ← switches.find? (·.long == name)
  match s.hasValue, body.dropWhile (· ≠ '=') with
  | true, [] => pure ([], .value name)
  | true, _ :: value => pure ([(name, String.ofList value)], .nothing)
  | false, [] => pure ([(name, "")], .nothing)
  | false, _ :: _ => none

/-- The options of a word, if it names some. -/
def optionsOf (switches : List Switch) (word : String) :
    Option (Option (List (String × String) × Need)) :=
  match word.toList with
  | '-' :: '-' :: body => some (long switches body)
  | '-' :: c :: cs => some (shorts switches (c :: cs))
  | _ => none

/-- Reads words. After the first other word, options are looked for only if `isMixed`. There is no
reading if an option is unknown, lacks its value or has one too many. -/
def read? (switches : List Switch) (isMixed : Bool) : List String → Option Said
  | [] => some {}
  | "--" :: rest => some { others := rest }
  | word :: rest =>
    match optionsOf switches word with
    | none =>
      if isMixed then (read? switches isMixed rest).map (·.withOther word)
      else some { others := word :: rest }
    | some none => none
    | some (some (given, need)) =>
      let add (s : Said) : Said := { s with options := given ++ s.options }
      match need, rest with
      | .nothing, rest => (read? switches isMixed rest).map add
      | .value _, [] => none
      | .value name, value :: rest =>
        (read? switches isMixed rest).map fun s => add (s.withOption name value)

end Maintainability.Command
