/-
Lexical volume: the number of words times the binary logarithm of the number of distinct ones.
-/
import Maintainability.Text.Runs
import Maintainability.Number.Binary64

namespace Maintainability.Text

/-- The distinct words, in order of their first appearance. -/
def vocabulary (ws : List Text) : List Text :=
  ws.foldl (fun seen w => if seen.contains w then seen else seen ++ [w]) []

/-- The volume of so many words with so many distinct ones among them; 0 if it is not finite. -/
def volumeOf (length distinct : Nat) : Float :=
  let v := Binary64.ofInt length * Float.log2 (Binary64.ofInt (max distinct 1))
  if Binary64.isFinite v then v else 0.0

/-- The lexical volume of a text. -/
def volume (t : Text) : Float :=
  let ws := t.words
  volumeOf ws.length (vocabulary ws).length

end Maintainability.Text
