/-
Which field an invalid value is reported for. A rule forbids some of the values that the type of its
field admits (`Field.Forbids`), and the fields are checked in a fixed order (`checked`). Of the merged
values the first in that order that is forbidden is to blame (`Blamed`), and the complaint names its
field and shows its value.

That it is never a standard value that is shown has two reasons: every standard value passes its rule, so
a rule is broken by a merged value only (`given_of_broken`), and a reason begins with the name of its
field, so the value that is looked up is that value (`subject_reason`). There is one exception, an integer
with too many digits: it cannot be shown, and loading ends with a fault instead of a complaint.
-/
import Maintainability.Proofs.Precedence

namespace Maintainability

/-! ## Types of fields -/

namespace Value

variable {v : Value} {n : Int}

/-- The integer that a value stands for; truth values count as 0 and 1. -/
def whole? : Value → Option Int
  | .bool b => some (if b then 1 else 0)
  | .int n => some n
  | _ => none

theorem number?_of_whole? (h : v.whole? = some n) : v.number? = some (.int n) := by
  cases v <;> simp [whole?] at h <;> simp [number?, h]

/-- An integer with too many digits. -/
def Long (v : Value) : Prop := ∃ n : Int, v = .int n ∧ Nat.pow 10 Literal.maxDigits ≤ n.natAbs

theorem long_int_iff : (Value.int n).Long ↔ ¬ Literal.Short n := by
  simp [Long, Literal.short_iff]

theorem Long.obstacle? (h : v.Long) (levels : Nat) : v.obstacle? levels = some .digits := by
  obtain ⟨n, rfl, hn⟩ := h
  exact if_neg (long_int_iff.1 ⟨n, rfl, hn⟩)

end Value

/-- A value of a kind. Truth values are integers too, and integers are numbers. -/
def Environment.Kind.Admits (v : Value) : Kind → Prop
  | .text | .word => ∃ t, v = .text t
  | .list => ∃ ts : List Text, v = .list (ts.map .text)
  | .flag => ∃ b, v = .bool b
  | .integer => ∃ n, v.whole? = some n
  | .number => ∃ q, v.number? = some q

namespace Field

variable {f : Field} {v : Value}

/-- A value of the type of a field. -/
def Admits (f : Field) (v : Value) : Prop :=
  Environment.isOptional f = true ∧ v = .null ∨ (Environment.kindOf f).Admits v

/-- A value that the rule of a field forbids. -/
def Forbids (v : Value) : Field → Prop
  | .language => v = .text []
  | .workers | .parallelThreshold | .maxFiles => ∃ n, v.whole? = some n ∧ n < 1
  | .timeoutSeconds | .maxFileSizeMb | .maxUploadMb | .maxTotalMb =>
    ∃ q, v.number? = some q ∧ q.atMost (.int 0) = true
  | .verbosity => ∃ t, v = .text t ∧ t ∉ Config.verbosities.map Text.ofString
  | .serverPort => ∃ n, v.whole? = some n ∧ (n < 1 ∨ 65535 < n)
  | .excludePatterns | .allowHiddenFiles | .serverHost => False

theorem Admits.kind (h : f.Admits v) (hf : Environment.isOptional f = false) :
    (Environment.kindOf f).Admits v := by
  rcases h with ⟨hoptional, -⟩ | h
  · simp [hf] at hoptional
  · exact h

/-- The standard value of a field is of its type. -/
theorem admits_default (f : Field) : f.Admits f.default := by
  cases f with
  | workers | timeoutSeconds => exact .inl ⟨rfl, rfl⟩
  | excludePatterns =>
    refine .inr ⟨["target/*", "build/*", "out/*", "dist/*", "node_modules/*", "vendor/*", "venv/*", ".venv/*",
      "__pycache__/*", "*.generated.*"].map Text.ofString, ?_⟩
    simp [default, Value.str]
  | _ => exact .inr ⟨_, rfl⟩

theorem Admits.not_mistyped (h : f.Admits v) (fault : Fault) : ¬ Config.Mistyped f v fault := by
  intro hm
  rcases h with ⟨hoptional, hnull⟩ | h
  · exact hm.given hoptional hnull
  · have hnone := hm.not_number
    have hfault := hm.fault
    cases f with
    | language | excludePatterns | allowHiddenFiles | verbosity | serverHost => cases hfault
    | maxFiles | workers | parallelThreshold | serverPort =>
      obtain ⟨n, hn⟩ := h
      simp [Value.number?_of_whole? hn] at hnone
    | maxFileSizeMb | timeoutSeconds | maxUploadMb | maxTotalMb =>
      obtain ⟨q, hq⟩ := h
      simp [hq] at hnone

/-- What is forbidden can be shown, unless it is a long integer: it has no parts. -/
theorem Forbids.obstacle? (h : f.Forbids v) (hshort : ¬ v.Long) (levels : Nat) : v.obstacle? levels = none := by
  cases v with
  | int n => exact if_pos (not_not.1 (mt Value.long_int_iff.2 hshort))
  | list items => cases f <;> simp [Forbids, Value.whole?, Value.number?] at h
  | table members => cases f <;> simp [Forbids, Value.whole?, Value.number?] at h
  | moment d t offset => cases f <;> simp [Forbids, Value.whole?, Value.number?] at h
  | _ => rfl

end Field

namespace Config

variable {c : Config} {r : Rule} {rs : List Rule} {t : Table} {f : Field} {v : Value} {n : Int}

/-! ## Rules and what they forbid -/

theorem lessThanOne_iff (h : ∃ n, v.whole? = some n) :
    lessThanOne v = .ok true ↔ ∃ n, v.whole? = some n ∧ n < 1 := by
  obtain ⟨n, hn⟩ := h
  simp [lessThanOne, compare, Value.number?_of_whole? hn, Quantity.less, hn]

theorem atMostZero_iff (h : ∃ q, v.number? = some q) :
    atMostZero v = .ok true ↔ ∃ q, v.number? = some q ∧ q.atMost (.int 0) = true := by
  obtain ⟨q, hq⟩ := h
  simp [atMostZero, compare, hq]

theorem badPort_iff (h : ∃ n, v.whole? = some n) :
    badPort v = .ok true ↔ ∃ n, v.whole? = some n ∧ (n < 1 ∨ 65535 < n) := by
  obtain ⟨n, hn⟩ := h
  simp [badPort, Value.number?_of_whole? hn, Quantity.less, hn]
  omega

/-- A test that passes over no value, for a rule that does not forbid it. -/
theorem unlessNull_iff {test : Value → Except Fault Bool} (hv : f.Admits v) (hnull : ¬ f.Forbids .null)
    (htest : (Environment.kindOf f).Admits v → (test v = .ok true ↔ f.Forbids v)) :
    unlessNull test v = .ok true ↔ f.Forbids v := by
  by_cases h : v = .null
  · subst h
    simp [unlessNull, hnull]
  · have hkind : (Environment.kindOf f).Admits v := by
      rcases hv with ⟨-, hv⟩ | hv
      · exact absurd hv h
      · exact hv
    rw [← htest hkind]
    cases v <;> simp [unlessNull] at h ⊢

theorem isBroken_iff (hr : r ∈ rules) (hv : r.field.Admits v) :
    r.isBroken v = .ok true ↔ r.field.Forbids v := by
  simp only [rules, List.mem_cons, List.not_mem_nil, or_false] at hr
  rcases hr with rfl | rfl | rfl | rfl | rfl | rfl | rfl | rfl | rfl | rfl
  · obtain ⟨t, rfl⟩ := hv.kind rfl
    simp [Field.Forbids, Value.isFalsy]
  · exact unlessNull_iff hv (by simp [Field.Forbids, Value.whole?]) lessThanOne_iff
  · exact lessThanOne_iff (hv.kind rfl)
  · exact unlessNull_iff hv (by simp [Field.Forbids, Value.number?]) atMostZero_iff
  · exact atMostZero_iff (hv.kind rfl)
  · exact lessThanOne_iff (hv.kind rfl)
  · obtain ⟨t, rfl⟩ := hv.kind rfl
    simp [Field.Forbids, badVerbosity]
  · exact badPort_iff (hv.kind rfl)
  · exact atMostZero_iff (hv.kind rfl)
  · exact atMostZero_iff (hv.kind rfl)

theorem exists_isBroken (hr : r ∈ rules) (hv : r.field.Admits v) : ∃ b, r.isBroken v = .ok b := by
  cases h : r.isBroken v with
  | ok b => exact ⟨b, rfl⟩
  | error fault => exact absurd ((isBroken_error hr).1 h) (hv.not_mistyped fault)

theorem passes_iff (hr : r ∈ rules) (hv : r.field.Admits (c.get r.field)) :
    c.Passes r ↔ ¬ r.field.Forbids (c.get r.field) := by
  obtain ⟨b, hb⟩ := exists_isBroken hr hv
  rw [Passes, ← isBroken_iff hr hv, hb]
  simp

theorem reaches_iff : c.Reaches rs r ↔ ∃ before after, rs = before ++ r :: after ∧ ∀ x ∈ before, c.Passes x := by
  constructor
  · intro h
    induction h with
    | here => exact ⟨[], _, rfl, by simp⟩
    | @later x r rs passed _ ih =>
      obtain ⟨before, after, rfl, hall⟩ := ih
      exact ⟨x :: before, after, rfl, List.forall_mem_cons.2 ⟨passed, hall⟩⟩
  · rintro ⟨before, after, rfl, hall⟩
    induction before with
    | nil => exact .here
    | cons x before ih =>
      obtain ⟨hx, hbefore⟩ := List.forall_mem_cons.1 hall
      exact .later hx (ih hbefore)

/-! ## The value to blame -/

/-- The fields that have a rule, in the order in which they are checked. -/
def checked : List Field :=
  [.language, .workers, .parallelThreshold, .timeoutSeconds, .maxFileSizeMb, .maxFiles, .verbosity, .serverPort,
    .maxUploadMb, .maxTotalMb]

theorem map_field_rules : rules.map (·.field) = checked := rfl

/-- The first merged value that is forbidden. -/
structure Blamed (t : Table) (f : Field) (v : Value) : Prop where
  merged : t.get? f.key = some v
  forbidden : f.Forbids v
  first : ∃ before after, checked = before ++ f :: after ∧
    ∀ g ∈ before, ∀ u, t.get? g.key = some u → ¬ g.Forbids u

/-- All names are those of fields, and all values of the types of these. -/
def Typed (t : Table) : Prop := ∀ x ∈ t, ∃ f : Field, x.1 = f.key ∧ f.Admits x.2

theorem Typed.unknownNames (h : Typed t) : unknownNames t = [] := by
  rw [unknownNames_eq_nil]
  intro k hk
  obtain ⟨x, hx, rfl⟩ := List.mem_map.1 hk
  obtain ⟨f, hf, -⟩ := h x hx
  exact ⟨f, hf⟩

theorem Typed.admits (h : Typed t) (f : Field) : f.Admits ((ofTable t).get f) := by
  cases hget : t.get? f.key with
  | none => simpa [ofTable, hget] using f.admits_default
  | some v =>
    obtain ⟨g, hg, hv⟩ := h (f.key, v) (Table.mem_of_get? hget)
    rw [← Field.key_inj.1 hg] at hv
    simpa [ofTable, hget] using hv

/-- A rule passes exactly when no merged value breaks it: the standard value does not. -/
theorem Typed.passes_iff (h : Typed t) (hr : r ∈ rules) :
    (ofTable t).Passes r ↔ ∀ u, t.get? r.field.key = some u → ¬ r.field.Forbids u := by
  constructor
  · intro hpasses u hu
    have hget : (ofTable t).get r.field = u := by simp [ofTable, hu]
    rw [← hget]
    exact (Config.passes_iff hr (h.admits _)).1 hpasses
  · intro hall
    refine (Config.passes_iff hr (h.admits _)).2 fun hforbidden => ?_
    have hbroken := (isBroken_iff hr (h.admits _)).2 hforbidden
    exact hall _ (given_of_broken hr hbroken) hforbidden

/-- The rule that is reached and broken is that of the value to blame. -/
theorem Typed.blamed_iff (h : Typed t) : Blamed t f v ↔ ∃ r, (ofTable t).Reaches rules r ∧
    r.isBroken ((ofTable t).get r.field) = .ok true ∧ r.field = f ∧ (ofTable t).get r.field = v := by
  constructor
  · intro hblamed
    obtain ⟨fields, fields', hsplit, hfirst⟩ := hblamed.first
    rw [← map_field_rules] at hsplit
    obtain ⟨before, rest, hrules, rfl, hrest⟩ := List.map_eq_append_iff.1 hsplit
    obtain ⟨r, after, rfl, rfl, rfl⟩ := List.map_eq_cons_iff.1 hrest
    have hr : r ∈ rules := by simp [hrules]
    have hget : (ofTable t).get r.field = v := by simp [ofTable, hblamed.merged]
    refine ⟨r, reaches_iff.2 ⟨before, after, hrules, fun x hx => ?_⟩, ?_, rfl, hget⟩
    · exact (h.passes_iff (by simp [hrules, hx])).2 (hfirst x.field (List.mem_map_of_mem hx))
    · exact (isBroken_iff hr (h.admits _)).2 (hget ▸ hblamed.forbidden)
  · rintro ⟨r, hreached, hbroken, rfl, rfl⟩
    obtain ⟨before, after, hrules, hpasses⟩ := reaches_iff.1 hreached
    refine ⟨given_of_broken hreached.mem hbroken, (isBroken_iff hreached.mem (h.admits _)).1 hbroken, ?_⟩
    refine ⟨before.map (·.field), after.map (·.field), ?_, fun g hg => ?_⟩
    · rw [← map_field_rules, hrules, List.map_append, List.map_cons]
    · obtain ⟨x, hx, rfl⟩ := List.mem_map.1 hg
      exact (h.passes_iff (by simp [hrules, hx])).1 (hpasses x hx)

theorem Typed.passes_or_blamed (h : Typed t) : (∀ r ∈ rules, (ofTable t).Passes r) ∨ ∃ f v, Blamed t f v := by
  rcases passes_or_reaches (ofTable t) rules with hall | ⟨r, hreached, hr⟩
  · exact .inl hall
  · have hforbidden : r.field.Forbids ((ofTable t).get r.field) := by
      by_contra hnot
      exact hr ((Config.passes_iff hreached.mem (h.admits _)).2 hnot)
    have hbroken := (isBroken_iff hreached.mem (h.admits _)).2 hforbidden
    exact .inr ⟨_, _, h.blamed_iff.2 ⟨r, hreached, hbroken, rfl, rfl⟩⟩

theorem mem_checked (h : f.Forbids v) : f ∈ checked := by
  cases f with
  | excludePatterns | allowHiddenFiles | serverHost => exact h.elim
  | _ => decide

theorem Typed.exists_blamed_iff (h : Typed t) :
    (∃ f v, Blamed t f v) ↔ ∃ (f : Field) (v : Value), t.get? f.key = some v ∧ f.Forbids v := by
  constructor
  · rintro ⟨f, v, hblamed⟩
    exact ⟨f, v, hblamed.merged, hblamed.forbidden⟩
  · rintro ⟨f, v, hget, hforbidden⟩
    rcases h.passes_or_blamed with hall | hblamed
    · have hf := mem_checked hforbidden
      rw [← map_field_rules] at hf
      obtain ⟨r, hr, rfl⟩ := List.mem_map.1 hf
      exact absurd hforbidden ((h.passes_iff hr).1 (hall r hr) v hget)
    · exact hblamed

theorem Typed.ofMerged_of_long (h : Typed t) (hblamed : Blamed t f v) (hlong : v.Long) (levels : Nat) :
    ofMerged levels t = .error (.badValue (Literal.beyondLimit "")) := by
  obtain ⟨r, hreached, hbroken, rfl, rfl⟩ := h.blamed_iff.1 hblamed
  rw [ofMerged_of_broken h.unknownNames hreached hbroken, hlong.obstacle?]
  rfl

theorem Typed.ofMerged_of_short (h : Typed t) (hblamed : Blamed t f v) (hshort : ¬ v.Long) (levels : Nat) :
    ∃ reason, ofMerged levels t = .error (.error (.invalidConfig f.name v reason)) := by
  obtain ⟨r, hreached, hbroken, rfl, rfl⟩ := h.blamed_iff.1 hblamed
  exact ⟨r.reason, by rw [ofMerged_of_broken h.unknownNames hreached hbroken, hblamed.forbidden.obstacle? hshort]⟩

variable {w : Workspace} {named : Option Path} {overrides : Table}

/-- **An invalid value is reported for the first field whose merged value is forbidden.** Whatever the
files, the environment and what the caller says, as long as all merged names are those of fields and all
values of their types: loading complains of a field and a value exactly when these are to blame and the
value is no long integer. If a merged value is forbidden, one is to blame, and a long integer that is to
blame ends loading with a fault; if none is, the configuration is loaded. -/
theorem invalid_value_attributed (hmerged : merged w named overrides = .ok t) (htyped : Typed t) :
    (∀ key v, (∃ reason, load w named overrides = .error (.error (.invalidConfig key v reason))) ↔
      ∃ f, Blamed t f v ∧ key = f.name ∧ ¬ v.Long) ∧
    ((∃ f v, Blamed t f v) ↔ ∃ (f : Field) (v : Value), t.get? f.key = some v ∧ f.Forbids v) ∧
    (∀ f v, Blamed t f v → v.Long → load w named overrides = .error (.badValue (Literal.beyondLimit ""))) ∧
    ((∀ (f : Field) v, t.get? f.key = some v → ¬ f.Forbids v) → load w named overrides = .ok (ofTable t)) := by
  have hload : load w named overrides = ofMerged w.levels t := by
    rw [load, hmerged]
    rfl
  rw [hload]
  refine ⟨fun key v => ⟨?_, ?_⟩, htyped.exists_blamed_iff, fun f v hblamed hlong => ?_, fun hnone => ?_⟩
  · rintro ⟨reason, hreported⟩
    rcases htyped.passes_or_blamed with hall | ⟨f, u, hblamed⟩
    · cases hreported.symm.trans (ofMerged_of_passes htyped.unknownNames hall)
    · by_cases hlong : u.Long
      · cases hreported.symm.trans (htyped.ofMerged_of_long hblamed hlong w.levels)
      · obtain ⟨reason', heq⟩ := htyped.ofMerged_of_short hblamed hlong w.levels
        cases hreported.symm.trans heq
        exact ⟨f, hblamed, rfl, hlong⟩
  · rintro ⟨f, hblamed, rfl, hshort⟩
    exact htyped.ofMerged_of_short hblamed hshort w.levels
  · exact htyped.ofMerged_of_long hblamed hlong w.levels
  · exact ofMerged_of_passes htyped.unknownNames fun r hr => (htyped.passes_iff hr).2 (hnone r.field)

/-- Three forbidden values, two of the environment and one said by the caller, which comes first in the order
of the fields. -/
theorem invalid_value_attributed_three :
    let w : Workspace :=
      { environment := [("CODECOMPLEXITY_MAX_FILES", "0"), ("CODECOMPLEXITY_VERBOSITY", "loud")] }
    ∃ reason, load w none [(Field.workers.key, .int (-1))] =
      .error (.error (.invalidConfig "workers" (.int (-1)) reason)) := by
  intro w
  let t : Table := [(Field.maxFiles.key, .int 0), (Field.verbosity.key, .str "loud"), (Field.workers.key, .int (-1))]
  have hmerged : merged w none [(Field.workers.key, .int (-1))] = .ok t := by with_unfolding_all rfl
  have htyped : Typed t := by
    simp only [Typed, t, List.forall_mem_cons, List.not_mem_nil, false_implies, implies_true, and_true]
    exact ⟨⟨.maxFiles, rfl, .inr ⟨0, rfl⟩⟩, ⟨.verbosity, rfl, .inr ⟨_, rfl⟩⟩, ⟨.workers, rfl, .inr ⟨-1, rfl⟩⟩⟩
  have hblamed : Blamed t .workers (.int (-1)) := {
    merged := rfl
    forbidden := ⟨-1, rfl, by decide⟩
    first := ⟨[.language], _, rfl, fun g hg u hu => by
      rw [List.mem_singleton.1 hg] at hu
      cases hu⟩ }
  have hshort : ¬ (Value.int (-1)).Long := fun hlong => Value.long_int_iff.1 hlong (by decide)
  exact ((invalid_value_attributed hmerged htyped).1 "workers" (.int (-1))).2 ⟨.workers, hblamed, rfl, hshort⟩

theorem unreported_of_long_port {n : Nat} (hn : Nat.pow 10 Literal.maxDigits ≤ n) :
    let t : Table := [(Field.serverPort.key, .int n)]
    merged {} none t = .ok t ∧ Typed t ∧ Field.serverPort.Forbids (.int n) ∧
      ∀ key v reason, load {} none t ≠ .error (.error (.invalidConfig key v reason)) := by
  intro t
  have hmerged : merged {} none t = .ok t := rfl
  have htyped : Typed t := by
    intro x hx
    rw [List.mem_singleton.1 hx]
    exact ⟨.serverPort, rfl, .inr ⟨n, rfl⟩⟩
  have hpow : ∀ k, 5 ≤ k → Nat.pow 10 5 ≤ Nat.pow 10 k := fun _ hk =>
    Nat.pow_le_pow_right (n := 10) (by decide) hk
  have hlarge : 100000 ≤ n := Nat.le_trans (hpow _ (by decide)) hn
  have hforbidden : Field.serverPort.Forbids (.int n) := ⟨n, rfl, by omega⟩
  obtain ⟨f, u, hblamed⟩ := htyped.exists_blamed_iff.2 ⟨.serverPort, .int n, rfl, hforbidden⟩
  obtain ⟨-, hu⟩ := Prod.mk.inj (List.mem_singleton.1 (Table.mem_of_get? hblamed.merged))
  have hlong : u.Long := ⟨n, hu, hn⟩
  have heq := htyped.ofMerged_of_long hblamed hlong ({} : Workspace).levels
  refine ⟨hmerged, htyped, hforbidden, fun key v reason hreported => ?_⟩
  rw [load, hmerged] at hreported
  cases heq.symm.trans hreported

/-- A port with more digits than can be shown: its rule forbids it, and no complaint says so. -/
theorem long_port_unreported :
    let overrides : Table := [(Field.serverPort.key, .int (Nat.pow 10 Literal.maxDigits))]
    merged {} none overrides = .ok overrides ∧ Typed overrides ∧
      Field.serverPort.Forbids (.int (Nat.pow 10 Literal.maxDigits)) ∧
      ∀ key v reason, load {} none overrides ≠ .error (.error (.invalidConfig key v reason)) :=
  unreported_of_long_port (Nat.le_refl _)

end Config

end Maintainability
