/-
The rules of a configuration. They are tried in order up to the first that does not pass
(`Reaches`), so trying them ends in one of three ways: all pass (`firstBroken_none`), one is broken
(`firstBroken_some`), or one cannot be decided (`firstBroken_error`). The last happens if a field that
is compared with a number has a value that is none (`Mistyped`, `isBroken_error`).
-/
import Mathlib.Tactic.MkIffOfInductiveProp
import Maintainability.Config.Environment

namespace Maintainability.Config

variable {c : Config} {r : Rule} {rs : List Rule} {v : Value} {f : Fault}

/-- A configuration passes a rule. -/
def Passes (c : Config) (r : Rule) : Prop := r.isBroken (c.get r.field) = .ok false

/-- A rule is reached: all before it pass. -/
inductive Reaches (c : Config) : List Rule → Rule → Prop
  | here {r : Rule} {rs : List Rule} : Reaches c (r :: rs) r
  | later {x r : Rule} {rs : List Rule} (passed : c.Passes x) (h : Reaches c rs r) : Reaches c (x :: rs) r

theorem Reaches.mem (h : c.Reaches rs r) : r ∈ rs := by
  induction h with
  | here => exact .head _
  | later _ _ ih => exact .tail _ ih

theorem passes_or_reaches (c : Config) (rs : List Rule) :
    (∀ r ∈ rs, c.Passes r) ∨ ∃ r, c.Reaches rs r ∧ ¬ c.Passes r := by
  induction rs with
  | nil => exact .inl (by simp)
  | cons x rs ih =>
    by_cases hx : c.Passes x
    · rcases ih with hall | ⟨r, hreaches, hr⟩
      · exact .inl (List.forall_mem_cons.2 ⟨hx, hall⟩)
      · exact .inr ⟨r, .later hx hreaches, hr⟩
    · exact .inr ⟨x, .here, hx⟩

theorem firstBroken_of_passes (h : c.Passes r) : c.firstBroken (r :: rs) = c.firstBroken rs := by
  rw [Passes] at h
  simp [firstBroken, h, bind, Except.bind]

theorem firstBroken_of_forall_passes (h : ∀ r ∈ rs, c.Passes r) : c.firstBroken rs = .ok none := by
  induction rs with
  | nil => rfl
  | cons r rs ih =>
    obtain ⟨hr, hrs⟩ := List.forall_mem_cons.1 h
    rw [firstBroken_of_passes hr, ih hrs]

theorem Reaches.firstBroken_of_broken (h : c.Reaches rs r) (hr : r.isBroken (c.get r.field) = .ok true) :
    c.firstBroken rs = .ok (some r) := by
  induction h with
  | here => simp [firstBroken, hr, bind, Except.bind, pure, Except.pure]
  | later passed _ ih => rw [firstBroken_of_passes passed, ih hr]

theorem Reaches.firstBroken_of_error (h : c.Reaches rs r) (hr : r.isBroken (c.get r.field) = .error f) :
    c.firstBroken rs = .error f := by
  induction h with
  | here => simp [firstBroken, hr, bind, Except.bind]
  | later passed _ ih => rw [firstBroken_of_passes passed, ih hr]

/-- Trying the rules ends in one of three ways. -/
theorem firstBroken_cases (c : Config) (rs : List Rule) :
    (∀ r ∈ rs, c.Passes r) ∧ c.firstBroken rs = .ok none ∨
    (∃ r, c.Reaches rs r ∧ r.isBroken (c.get r.field) = .ok true ∧ c.firstBroken rs = .ok (some r)) ∨
    ∃ r f, c.Reaches rs r ∧ r.isBroken (c.get r.field) = .error f ∧ c.firstBroken rs = .error f := by
  rcases passes_or_reaches c rs with hall | ⟨r, hreaches, hr⟩
  · exact .inl ⟨hall, firstBroken_of_forall_passes hall⟩
  · match h : r.isBroken (c.get r.field) with
    | .ok false => exact absurd h hr
    | .ok true => exact .inr (.inl ⟨r, hreaches, h, hreaches.firstBroken_of_broken h⟩)
    | .error f => exact .inr (.inr ⟨r, f, hreaches, h, hreaches.firstBroken_of_error h⟩)

theorem firstBroken_none : c.firstBroken rs = .ok none ↔ ∀ r ∈ rs, c.Passes r := by
  refine ⟨fun hfirst => ?_, firstBroken_of_forall_passes⟩
  rcases firstBroken_cases c rs with ⟨hall, -⟩ | ⟨r, -, -, h⟩ | ⟨r, f, -, -, h⟩
  · exact hall
  · cases h.symm.trans hfirst
  · cases h.symm.trans hfirst

theorem firstBroken_some :
    c.firstBroken rs = .ok (some r) ↔ c.Reaches rs r ∧ r.isBroken (c.get r.field) = .ok true := by
  refine ⟨fun hfirst => ?_, fun ⟨hreaches, hr⟩ => hreaches.firstBroken_of_broken hr⟩
  rcases firstBroken_cases c rs with ⟨-, h⟩ | ⟨x, hreaches, hx, h⟩ | ⟨x, f, -, -, h⟩
  · cases h.symm.trans hfirst
  · cases h.symm.trans hfirst
    exact ⟨hreaches, hx⟩
  · cases h.symm.trans hfirst

theorem firstBroken_error :
    c.firstBroken rs = .error f ↔ ∃ r, c.Reaches rs r ∧ r.isBroken (c.get r.field) = .error f := by
  refine ⟨fun hfirst => ?_, fun ⟨r, hreaches, hr⟩ => hreaches.firstBroken_of_error hr⟩
  rcases firstBroken_cases c rs with ⟨-, h⟩ | ⟨x, -, -, h⟩ | ⟨x, g, hreaches, hx, h⟩
  · cases h.symm.trans hfirst
  · cases h.symm.trans hfirst
  · cases h.symm.trans hfirst
    exact ⟨x, hreaches, hx⟩

/-! ## Values that are not numbers -/

/-- The fault of a value that a field compares with a number, if it does. -/
def misfit? : Field → Option (String → Fault)
  | .workers | .parallelThreshold | .maxFiles => some fun kind => unordered "<" kind "int"
  | .timeoutSeconds | .maxFileSizeMb | .maxUploadMb | .maxTotalMb => some fun kind => unordered "<=" kind "int"
  | .serverPort => some fun kind => unordered "<" "int" kind
  | .language | .excludePatterns | .allowHiddenFiles | .verbosity | .serverHost => none

/-- A value of a field that is compared with a number and is none; a field without a value is not
compared if it may have none. -/
@[mk_iff]
structure Mistyped (field : Field) (v : Value) (f : Fault) : Prop where
  fault : (misfit? field).map (· v.kindName) = some f
  not_number : v.number? = none
  given : Environment.isOptional field = true → v ≠ .null

theorem compare_error {op : String} {test : Quantity → Bool} :
    compare op test v = .error f ↔ v.number? = none ∧ unordered op v.kindName "int" = f := by
  rw [compare]
  cases v.number? <;> simp

theorem badPort_error : badPort v = .error f ↔ v.number? = none ∧ unordered "<" "int" v.kindName = f := by
  rw [badPort]
  cases v.number? <;> simp

theorem unlessNull_error {test : Value → Except Fault Bool} :
    unlessNull test v = .error f ↔ v ≠ .null ∧ test v = .error f := by
  cases v <;> simp [unlessNull]

/-- **A rule cannot be decided** exactly for a value that is no number where one is compared. -/
theorem isBroken_error (h : r ∈ rules) : r.isBroken v = .error f ↔ Mistyped r.field v f := by
  simp only [rules, List.mem_cons, List.not_mem_nil, or_false] at h
  -- one case for each rule; two compare nothing, two only what is given
  rcases h with rfl | rfl | rfl | rfl | rfl | rfl | rfl | rfl | rfl | rfl <;>
    simp [mistyped_iff, misfit?, Environment.isOptional, unlessNull_error, lessThanOne, atMostZero, compare_error,
      badPort_error, and_comm, and_left_comm]

theorem Mistyped.kind {field : Field} (h : Mistyped field v f) : f.kind = .type := by
  have hfault := h.fault
  cases field <;> cases hfault <;> rfl

end Maintainability.Config
