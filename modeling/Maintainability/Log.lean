/-
Log records: a level and a message. A record passes a threshold when its level is at least as
severe.
-/
namespace Maintainability.Log

/-- The levels, from the least severe to the most. -/
inductive Level where
  | debug
  | info
  | warning
  | error
  | critical
  deriving DecidableEq, Repr, Inhabited

/-- The word for a level. -/
def Level.name : Level → String
  | .debug => "DEBUG"
  | .info => "INFO"
  | .warning => "WARNING"
  | .error => "ERROR"
  | .critical => "CRITICAL"

/-- All levels. -/
def Level.all : List Level := [.debug, .info, .warning, .error, .critical]

/-- The level with a name. -/
def Level.ofName? (s : String) : Option Level := Level.all.find? (·.name == s)

/-- How severe a level is. -/
def Level.rank : Level → Nat
  | .debug => 10
  | .info => 20
  | .warning => 30
  | .error => 40
  | .critical => 50

/-- A record. -/
structure Record where
  level : Level
  message : String
  deriving DecidableEq, Repr

/-- The records that pass a threshold. -/
def passing (threshold : Level) (rs : List Record) : List Record :=
  rs.filter fun r => threshold.rank ≤ r.level.rank

end Maintainability.Log
