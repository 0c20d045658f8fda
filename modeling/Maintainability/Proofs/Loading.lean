/-
Faults of loading. Loading a configuration is meant to end with one that passes all rules or with an
error of the analyzer. It ends with a fault in four cases: a file may not be looked up, or has no place
for want of a home (`Unlocated`); a file that is read is not UTF-8, has an integer with too many digits
or a value that is nested too deep (`NoDocument`); a rule compares a value that is no number
(`Mistyped`); or a rule is broken by a value that cannot be shown. There are no others (`load_fault`).
-/
import Maintainability.Proofs.Rules
import Maintainability.Proofs.Tables

namespace Maintainability.Config

variable {w : Workspace} {named : Option Path} {overrides t : Table} {c : Config} {f : Fault} {levels : Nat}

/-! ## Files -/

/-- The files that values come from. -/
inductive Layer where
  | home
  | project
  | explicit

namespace Layer

/-- The files that are read before one. -/
def before : Layer → List Layer
  | .home => []
  | .project => [.home]
  | .explicit => [.home, .project]

/-- The table of a file, empty if there is none. -/
def table (w : Workspace) (named : Option Path) : Layer → Except Failure Table
  | .home => tableAtHome w
  | .project => tableAt w "project config" (projectFile w)
  | .explicit => tableNamed w named

/-- The place of a file, with its text in messages. -/
def place? (w : Workspace) (named : Option Path) : Layer → Option (Place × String)
  | .home => w.home.map fun home => (homeFile home, w.textOf (homeFile home))
  | .project => some (projectFile w, w.textOf (projectFile w))
  | .explicit => named.map fun p => (w.placeOf p, p.text)

/-- The bytes of a file, if it can be looked up and read. -/
def content (w : Workspace) (named : Option Path) : Layer → Option (List UInt8)
  | .home => w.home.bind fun home => bytesAt (homeFile home)
  | .project => bytesAt (projectFile w)
  | .explicit => named.bind fun p => if (w.barred (w.placeOf p)).isSome then none else (w.read p).toOption
where
  /-- The bytes of the file at a place. -/
  bytesAt (p : Place) : Option (List UInt8) :=
    if (w.barred p).isSome then none
    else (w.follow Workspace.maxSteps [] p).bind fun found => (Workspace.bytesOf (some found.2)).toOption

end Layer

/-- A file that cannot even be looked for: there is no home to look in, or its place is barred. -/
inductive Unlocated (w : Workspace) (named : Option Path) : Layer → Fault → Prop
  | homeless (h : w.home = none) : Unlocated w named .home homeless
  | barred {l : Layer} {p : Place} {text : String} {r : Workspace.Refusal} (place : l.place? w named = some (p, text))
      (h : w.barred p = some r) : Unlocated w named l (barredFile text r)

/-- Bytes that cannot be read as a document, for a reason other than the format. -/
inductive NoDocument (calls : Nat) (bytes : List UInt8) : Fault → Prop
  | encoding {e : Utf8.Error} (h : Utf8.decode bytes = .error e) : NoDocument calls bytes ⟨.decoding, e.message⟩
  | digits {cs : List Char} {n : Nat} (decoded : Utf8.decode bytes = .ok cs)
      (h : Toml.parse calls cs = .error (.tooLong n)) : NoDocument calls bytes ⟨.value, Literal.tooLong n⟩
  | depth {cs : List Char} (decoded : Utf8.decode bytes = .ok cs) (h : Toml.parse calls cs = .error .tooDeep) :
      NoDocument calls bytes overdeep

theorem readTable_fault {label path : String} {bytes : List UInt8} :
    readTable w label path bytes = .error (.fault f) ↔ NoDocument w.calls bytes f := by
  simp only [readTable]
  constructor
  · intro h
    split at h
    · next e he =>
      cases h
      exact .encoding he
    · next cs hcs =>
      split at h
      · cases h
      · cases h
      · next n hn =>
        cases h
        exact .digits hcs hn
      · next hdeep =>
        cases h
        exact .depth hcs hdeep
  · rintro (h | ⟨hcs, h⟩ | ⟨hcs, h⟩)
    · simp [h]
    · simp [hcs, h, Failure.badValue]
    · simp [hcs, h]

theorem tableAt_fault {label : String} {p : Place} :
    tableAt w label p = .error (.fault f) ↔ (∃ r, w.barred p = some r ∧ f = barredFile (w.textOf p) r) ∨
      ∃ bytes, Layer.content.bytesAt w p = some bytes ∧ NoDocument w.calls bytes f := by
  rw [tableAt, Layer.content.bytesAt]
  cases w.barred p with
  | some r => simp [eq_comm]
  | none =>
    cases w.follow Workspace.maxSteps [] p with
    | none => simp
    | some found =>
      cases hbytes : Workspace.bytesOf (some found.2) with
      | error r => simp [hbytes, Except.toOption, badFile]
      | ok bytes => simp [hbytes, Except.toOption, readTable_fault]

theorem tableNamed_fault :
    tableNamed w named = .error (.fault f) ↔
      (∃ p r, named = some p ∧ w.barred (w.placeOf p) = some r ∧ f = barredFile p.text r) ∨
      ∃ bytes, Layer.content w named .explicit = some bytes ∧ NoDocument w.calls bytes f := by
  cases named with
  | none => simp [tableNamed, Layer.content]
  | some p =>
    rw [tableNamed, Layer.content, Option.bind_some]
    cases hbarred : w.barred (w.placeOf p) with
    | some r => simp [hbarred, eq_comm]
    | none =>
      cases hread : w.read p with
      | error why => cases w.has p <;> simp [hbarred, badFile, Except.toOption]
      | ok bytes =>
        -- what can be read is there, so the file is not reported missing
        have hhas : w.has p = true := by
          by_contra hnot
          have hnone : w.find? p = none := by simpa [Workspace.has] using hnot
          simp [Workspace.read, hnone, Workspace.bytesOf] at hread
        simp [hbarred, hhas, Except.toOption, readTable_fault]

theorem unlocated_iff {l : Layer} : Unlocated w named l f ↔ (l = .home ∧ w.home = none ∧ f = homeless) ∨
    ∃ p text r, l.place? w named = some (p, text) ∧ w.barred p = some r ∧ f = barredFile text r := by
  constructor
  · rintro (h | ⟨hplace, h⟩)
    · exact .inl ⟨rfl, h, rfl⟩
    · exact .inr ⟨_, _, _, hplace, h, rfl⟩
  · rintro (⟨rfl, h, rfl⟩ | ⟨p, text, r, hplace, h, rfl⟩)
    · exact .homeless h
    · exact .barred hplace h

theorem Layer.table_fault {l : Layer} : l.table w named = .error (.fault f) ↔
    Unlocated w named l f ∨ ∃ bytes, l.content w named = some bytes ∧ NoDocument w.calls bytes f := by
  rw [unlocated_iff]
  cases l with
  | home =>
    cases hhome : w.home with
    | none => simp [table, tableAtHome, hhome, content, place?, eq_comm]
    | some home => simp [table, tableAtHome, hhome, content, place?, tableAt_fault]
  | project => simp [table, content, place?, tableAt_fault]
  | explicit =>
    rw [show table w named .explicit = tableNamed w named from rfl, tableNamed_fault]
    simp [place?]

/-- What all files give, if all can be read. -/
structure Files (w : Workspace) (named : Option Path) where
  /-- The table of a file. -/
  table : Layer → Table
  loaded : ∀ l : Layer, l.table w named = .ok (table l)

namespace Files

/-- The files of three tables. -/
def ofTables {home project explicit : Table} (hhome : Layer.table w named .home = .ok home)
    (hproject : Layer.table w named .project = .ok project)
    (hexplicit : Layer.table w named .explicit = .ok explicit) : Files w named where
  table
    | .home => home
    | .project => project
    | .explicit => explicit
  loaded
    | .home => hhome
    | .project => hproject
    | .explicit => hexplicit

/-- The files and two further tables, all merged in this order. -/
def mergedWith (files : Files w named) (env said : Table) : Table :=
  ((((Table.merge [] (files.table .home)).merge (files.table .project)).merge (files.table .explicit)).merge env)
    |>.merge said

end Files

theorem merged_ok : merged w named overrides = .ok t ↔
    ∃ (files : Files w named) (env : Table), Environment.table w.environment = .ok env ∧
      t = files.mergedWith env (said overrides) := by
  constructor
  · intro h
    obtain ⟨home, hhome, h⟩ := bind_eq_ok.1 h
    obtain ⟨project, hproject, h⟩ := bind_eq_ok.1 h
    obtain ⟨explicit, hexplicit, h⟩ := bind_eq_ok.1 h
    split at h
    · cases h
    · next env henv =>
      cases h
      exact ⟨.ofTables hhome hproject hexplicit, env, henv, rfl⟩
  · rintro ⟨files, env, henv, rfl⟩
    refine bind_eq_ok.2 ⟨_, files.loaded .home, bind_eq_ok.2 ⟨_, files.loaded .project, bind_eq_ok.2
      ⟨_, files.loaded .explicit, ?_⟩⟩⟩
    rw [henv]
    rfl

theorem merged_fault : merged w named overrides = .error (.fault f) ↔
    ∃ l : Layer, (∀ x ∈ l.before, ∃ t, x.table w named = .ok t) ∧ l.table w named = .error (.fault f) := by
  constructor
  · intro h
    rcases bind_eq_error.1 h with hhome | ⟨home, hhome, h⟩
    · exact ⟨.home, by simp [Layer.before], hhome⟩
    rcases bind_eq_error.1 h with hproject | ⟨project, hproject, h⟩
    · exact ⟨.project, List.forall_mem_singleton.2 ⟨home, hhome⟩, hproject⟩
    rcases bind_eq_error.1 h with hexplicit | ⟨explicit, hexplicit, h⟩
    · have hbefore : ∀ x ∈ Layer.before .explicit, ∃ t, x.table w named = .ok t :=
        List.forall_mem_cons.2 ⟨⟨home, hhome⟩, List.forall_mem_singleton.2 ⟨project, hproject⟩⟩
      exact ⟨.explicit, hbefore, hexplicit⟩
    -- once the files are read, only the environment can fail, and it fails with an error
    · split at h <;> cases h
  · rintro ⟨l, hbefore, hl⟩
    cases l with
    | home => exact bind_eq_error.2 (.inl hl)
    | project =>
      obtain ⟨home, hhome⟩ := hbefore .home (by simp [Layer.before])
      exact bind_eq_error.2 (.inr ⟨home, hhome, bind_eq_error.2 (.inl hl)⟩)
    | explicit =>
      obtain ⟨home, hhome⟩ := hbefore .home (by simp [Layer.before])
      obtain ⟨project, hproject⟩ := hbefore .project (by simp [Layer.before])
      refine bind_eq_error.2 (.inr ⟨home, hhome, bind_eq_error.2 (.inr ⟨project, hproject, ?_⟩)⟩)
      exact bind_eq_error.2 (.inl hl)

/-! ## Values -/

/-- Every field passes its rule with the value that it has when nothing is said. -/
theorem standard_passes : ∀ r ∈ rules, standard.Passes r := by
  simp only [rules, List.forall_mem_cons, List.not_mem_nil, false_implies, implies_true, and_true]
  refine ⟨?_, ?_, ?_, ?_, ?_, ?_, ?_, ?_, ?_, ?_⟩ <;> rfl

/-- So a value that breaks a rule was given. -/
theorem given_of_broken {r : Rule} (hr : r ∈ rules) (h : r.isBroken ((ofTable t).get r.field) = .ok true) :
    t.get? (.ofString r.field.name) = some ((ofTable t).get r.field) := by
  cases hget : t.get? (.ofString r.field.name) with
  | some v => simp [ofTable, hget]
  | none =>
    have hstandard : (ofTable t).get r.field = standard.get r.field := by simp [ofTable, standard, hget]
    rw [hstandard, standard_passes r hr] at h
    cases h

/-- The reason of a rule begins with the name of its field, which has no blank. -/
theorem subject_reason (r : Rule) : subject r.reason = r.field.name := by
  have hname : r.field.name.toList.all (· ≠ ' ') = true := by cases r.field <;> rfl
  have hcut : r.reason.toList.takeWhile (· ≠ ' ') = r.field.name.toList := by
    rw [Rule.reason, String.toList_append, String.toList_append, List.append_assoc,
      List.takeWhile_append_of_pos (List.all_eq_true.1 hname)]
    simp
  rw [subject, hcut, String.ofList_toList]

/-- Values that no rule can complain of: a rule that is reached compares one that is no number, or is
broken by one that cannot be shown. -/
inductive NoComplaint (levels : Nat) (t : Table) : Fault → Prop
  | mistyped {r : Rule} {f : Fault} (reached : (ofTable t).Reaches rules r)
      (h : Mistyped r.field ((ofTable t).get r.field) f) : NoComplaint levels t f
  | unshowable {r : Rule} {o : Value.Obstacle} (reached : (ofTable t).Reaches rules r)
      (broken : r.isBroken ((ofTable t).get r.field) = .ok true)
      (h : ((ofTable t).get r.field).obstacle? levels = some o) : NoComplaint levels t (unshown o)

section

variable (hknown : unknownNames t = [])

include hknown

theorem ofMerged_of_passes (h : ∀ r ∈ rules, (ofTable t).Passes r) : ofMerged levels t = .ok (ofTable t) := by
  have hnone : (ofTable t).broken? = .ok none := firstBroken_none.2 h
  simp only [ofMerged, hknown, hnone]

theorem ofMerged_of_broken {r : Rule} (hreached : (ofTable t).Reaches rules r)
    (hbroken : r.isBroken ((ofTable t).get r.field) = .ok true) :
    ofMerged levels t = .error (match ((ofTable t).get r.field).obstacle? levels with
      | some o => .fault (unshown o)
      | none => .error (.invalidConfig r.field.name ((ofTable t).get r.field) r.reason)) := by
  have hsome : (ofTable t).broken? = .ok (some r) := firstBroken_some.2 ⟨hreached, hbroken⟩
  have hgiven := given_of_broken hreached.mem hbroken
  simp only [ofMerged, hknown, hsome, subject_reason, hgiven, Option.getD_some]
  cases ((ofTable t).get r.field).obstacle? levels <;> rfl

theorem ofMerged_of_mistyped {r : Rule} (hreached : (ofTable t).Reaches rules r)
    (h : Mistyped r.field ((ofTable t).get r.field) f) : ofMerged levels t = .error (.fault f) := by
  have herror : (ofTable t).broken? = .error f :=
    firstBroken_error.2 ⟨r, hreached, (isBroken_error hreached.mem).2 h⟩
  simp only [ofMerged, hknown, herror]

end

theorem ofMerged_ok : ofMerged levels t = .ok c ↔ unknownNames t = [] ∧ c = ofTable t ∧ ∀ r ∈ rules, c.Passes r := by
  constructor
  · intro h
    simp only [ofMerged] at h
    split at h
    · cases h
    · next hknown =>
      split at h
      · cases h
      · split at h <;> cases h
      · next hnone =>
        cases h
        exact ⟨hknown, rfl, firstBroken_none.1 hnone⟩
  · rintro ⟨hknown, rfl, hpasses⟩
    exact ofMerged_of_passes hknown hpasses

theorem ofMerged_fault : ofMerged levels t = .error (.fault f) ↔ unknownNames t = [] ∧ NoComplaint levels t f := by
  constructor
  · intro h
    have hofMerged := h
    simp only [ofMerged] at h
    split at h
    · cases h
    · next hknown =>
      refine ⟨hknown, ?_⟩
      split at h
      · next f' herror =>
        cases h
        obtain ⟨r, hreached, herror⟩ := firstBroken_error.1 herror
        exact .mistyped hreached ((isBroken_error hreached.mem).1 herror)
      · next r hsome =>
        obtain ⟨hreached, hbroken⟩ := firstBroken_some.1 hsome
        rw [ofMerged_of_broken hknown hreached hbroken] at hofMerged
        split at hofMerged
        · next o hshow =>
          cases hofMerged
          exact .unshowable hreached hbroken hshow
        · cases hofMerged
      · cases h
  · rintro ⟨hknown, h⟩
    cases h with
    | mistyped hreached h => exact ofMerged_of_mistyped hknown hreached h
    | unshowable hreached hbroken h => rw [ofMerged_of_broken hknown hreached hbroken, h]

/-! ## Faults -/

/-- What makes loading end with a fault: a file that cannot be looked for, one that is read and is no
document, or values that no rule can complain of. -/
inductive LoadFault (w : Workspace) (named : Option Path) (overrides : Table) : Fault → Prop
  | location {l : Layer} {f : Fault} (before : ∀ x ∈ l.before, ∃ t, x.table w named = .ok t)
      (h : Unlocated w named l f) : LoadFault w named overrides f
  | file {l : Layer} {bytes : List UInt8} {f : Fault} (before : ∀ x ∈ l.before, ∃ t, x.table w named = .ok t)
      (read : l.content w named = some bytes) (h : NoDocument w.calls bytes f) : LoadFault w named overrides f
  | values {t : Table} {f : Fault} (merged : merged w named overrides = .ok t) (known : unknownNames t = [])
      (h : NoComplaint w.levels t f) : LoadFault w named overrides f

theorem load_fault : load w named overrides = .error (.fault f) ↔ LoadFault w named overrides f := by
  rw [load, bind_eq_error, merged_fault]
  constructor
  · rintro (⟨l, hbefore, hl⟩ | ⟨t, hmerged, h⟩)
    · rcases Layer.table_fault.1 hl with hunlocated | ⟨bytes, hread, hbytes⟩
      · exact .location hbefore hunlocated
      · exact .file hbefore hread hbytes
    · obtain ⟨hknown, hcomplaint⟩ := ofMerged_fault.1 h
      exact .values hmerged hknown hcomplaint
  · intro h
    cases h with
    | location hbefore h => exact .inl ⟨_, hbefore, Layer.table_fault.2 (.inl h)⟩
    | file hbefore hread hbytes => exact .inl ⟨_, hbefore, Layer.table_fault.2 (.inr ⟨_, hread, hbytes⟩)⟩
    | values hmerged hknown hcomplaint => exact .inr ⟨_, hmerged, ofMerged_fault.2 ⟨hknown, hcomplaint⟩⟩

/-- The kinds of faults in which loading may end. -/
def loadFaults : List FaultKind := [.runtime, .system, .decoding, .value, .type, .recursion]

theorem LoadFault.kind (h : LoadFault w named overrides f) : f.kind ∈ loadFaults := by
  cases h with
  | location _ h => cases h <;> simp [loadFaults, homeless, barredFile]
  | file _ _ h => cases h <;> simp [loadFaults, overdeep]
  | values _ _ h =>
    cases h with
    | mistyped _ h => simp [loadFaults, h.kind]
    | @unshowable _ o => cases o <;> simp [loadFaults, unshown]

theorem load_ok : load w named overrides = .ok c ↔
    ∃ t, merged w named overrides = .ok t ∧ unknownNames t = [] ∧ c = ofTable t ∧ ∀ r ∈ rules, c.Passes r := by
  rw [load, bind_eq_ok]
  exact exists_congr fun t => and_congr_right fun _ => ofMerged_ok

/-- **When loading ends with a fault.** Whatever the files, the environment and what the caller says:
a configuration that is loaded passes all rules, and loading ends with a fault exactly in the cases of
`LoadFault`. The fault is of one of six kinds; any other failure is an error of the analyzer. -/
theorem load_faults_exact (w : Workspace) (named : Option Path) (overrides : Table) :
    (∀ c, load w named overrides = .ok c → ∀ r ∈ rules, c.Passes r) ∧
      (∀ f, load w named overrides = .error (.fault f) ↔ LoadFault w named overrides f) ∧
      ∀ f, LoadFault w named overrides f → f.kind ∈ loadFaults := by
  refine ⟨fun c h => ?_, fun f => load_fault, fun f => LoadFault.kind⟩
  obtain ⟨-, -, -, -, hpasses⟩ := load_ok.1 h
  exact hpasses

/-- A file of the project that is not UTF-8. -/
theorem load_faults_exact_bytes :
    let w : Workspace := { nodes := [([fileName.toList], .file [0xFF] true true)] }
    ∃ f, f.kind = .decoding ∧ load w none [] = .error (.fault f) := by
  intro w
  have hbefore : ∀ x ∈ Layer.before .project, ∃ t, x.table w none = .ok t :=
    List.forall_mem_singleton.2 ⟨[], rfl⟩
  have hread : Layer.content w none .project = some [0xFF] := rfl
  have hdecode : Utf8.decode [0xFF] = .error ⟨.startByte, 0, 0xFF, 1⟩ := by with_unfolding_all rfl
  obtain ⟨-, hfault, -⟩ := load_faults_exact w none []
  exact ⟨_, rfl, (hfault _).2 (.file hbefore hread (.encoding hdecode))⟩

/-- A file of the project with a text where a number is compared: no error of the analyzer, but a
fault. -/
theorem load_fault_of_text :
    let w : Workspace := { nodes := [([fileName.toList], .file "max_files = \"many\"\n".toUTF8.toList true true)] }
    load w none [] = .error (.fault ⟨.type, "'<' not supported between instances of 'str' and 'int'"⟩) := by
  with_unfolding_all rfl

end Maintainability.Config
