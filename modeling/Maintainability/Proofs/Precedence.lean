/-
Which source gives a field its value. A field takes what the caller says of it, else what its variable
gives, else what the file that was named, the file of the project or the file at home has, else its
standard value (`Files.value`). Two kinds of no value differ: a caller who gives none leaves the field
open, but a variable that gives none has spoken. The switches of the caller speak of the verbosity, and
`quiet` has more force (`spoken?`). Loading succeeds exactly when every name is that of a field, every
variable that is set can be converted and the values so chosen pass the rules
(`loaded_by_precedence`).
-/
import Maintainability.Proofs.Loading

namespace Maintainability

/-! ## Names of fields -/

namespace Field

/-- The name of a field in a table. -/
abbrev key (f : Field) : Text := .ofString f.name

theorem nodup_keys : (all.map key).Nodup := by decide

theorem key_inj {f g : Field} : f.key = g.key ↔ f = g :=
  ⟨fun h => List.inj_on_of_nodup_map nodup_keys (mem_all f) (mem_all g) h, congrArg key⟩

end Field

/-- The name of a field. -/
def IsField (k : Text) : Prop := ∃ f : Field, k = f.key

theorem Config.unknownNames_eq_nil {t : Table} : unknownNames t = [] ↔ ∀ k ∈ t.names, IsField k := by
  rw [unknownNames, List.filter_eq_nil_iff]
  refine forall₂_congr fun k _ => ?_
  simp only [Bool.not_eq_true', Bool.not_eq_false, List.contains_iff_mem, List.mem_map]
  constructor
  · rintro ⟨f, -, h⟩
    exact ⟨f, h.symm⟩
  · rintro ⟨f, h⟩
    exact ⟨f, f.mem_all, h.symm⟩

/-! ## The environment -/

namespace Environment

variable {env : Variables}

/-- The value that the environment gives to a field, if its variable is set. -/
def given? (env : Variables) (f : Field) : Option Value :=
  (get? env f.variableName).bind fun raw => (valueOf f raw.toList).toOption

/-- The variable of a field can be converted if it is set. -/
def Converts (env : Variables) (f : Field) : Prop :=
  ∀ raw, get? env f.variableName = some raw → ∃ v, valueOf f raw.toList = .ok v

/-- The values that the environment gives to some fields. -/
def given (env : Variables) (fs : List Field) : Config.Table :=
  fs.filterMap fun f => (given? env f).map (f.key, ·)

theorem given_cons_of_none {f : Field} {fs : List Field} (h : given? env f = none) :
    given env (f :: fs) = given env fs := by
  simp [given, h]

theorem given_cons_of_some {f : Field} {fs : List Field} {v : Value} (h : given? env f = some v) :
    given env (f :: fs) = (f.key, v) :: given env fs := by
  simp [given, h]

theorem collect_ok {fs : List Field} {t : Config.Table} :
    collect env fs = .ok t ↔ (∀ f ∈ fs, Converts env f) ∧ t = given env fs := by
  induction fs generalizing t with
  | nil => simp [collect, given, eq_comm]
  | cons f fs ih =>
    rw [List.forall_mem_cons]
    cases hraw : get? env f.variableName with
    | none =>
      have hnone : given? env f = none := by simp [given?, hraw]
      have hconverts : Converts env f := fun raw h => by
        rw [hraw] at h
        cases h
      simp only [collect, hraw, given_cons_of_none hnone, ih, hconverts, true_and]
    | some raw =>
      cases hv : valueOf f raw.toList with
      | error why =>
        have hnot : ¬ Converts env f := fun h => by
          obtain ⟨v, hok⟩ := h raw hraw
          cases hv.symm.trans hok
        simp [collect, hraw, hv, hnot]
      | ok v =>
        have hsome : given? env f = some v := by simp [given?, hraw, hv, Except.toOption]
        have hconverts : Converts env f := fun raw' h => by
          cases hraw.symm.trans h
          exact ⟨v, hv⟩
        simp only [collect, hraw, hv, given_cons_of_some hsome]
        constructor
        · intro h
          obtain ⟨more, hmore, he⟩ := bind_eq_ok.1 h
          cases he
          obtain ⟨hfs, rfl⟩ := ih.1 hmore
          exact ⟨⟨hconverts, hfs⟩, rfl⟩
        · rintro ⟨⟨-, hfs⟩, rfl⟩
          exact bind_eq_ok.2 ⟨_, ih.2 ⟨hfs, rfl⟩, rfl⟩

theorem names_given_sublist (env : Variables) (fs : List Field) :
    (given env fs).names.Sublist (fs.map Field.key) := by
  induction fs with
  | nil => exact .slnil
  | cons f fs ih =>
    cases h : given? env f with
    | none =>
      rw [given_cons_of_none h]
      exact ih.cons _
    | some v =>
      rw [given_cons_of_some h]
      exact ih.cons_cons _

theorem given_distinct (env : Variables) : (given env Field.all).Distinct :=
  Field.nodup_keys.sublist (names_given_sublist env Field.all)

theorem mem_given {fs : List Field} {f : Field} {v : Value} (hf : f ∈ fs) :
    (f.key, v) ∈ given env fs ↔ given? env f = some v := by
  simp only [given, List.mem_filterMap, Option.map_eq_some_iff, Prod.mk.injEq]
  constructor
  · rintro ⟨g, -, _, hg, hkey, rfl⟩
    rw [← Field.key_inj.1 hkey]
    exact hg
  · intro h
    exact ⟨f, hf, v, h, rfl, rfl⟩

theorem get?_given (env : Variables) (f : Field) : (given env Field.all).get? f.key = given? env f := by
  ext v
  rw [← mem_given f.mem_all]
  exact ⟨Config.Table.mem_of_get?, Config.Table.get?_of_mem (given_distinct env)⟩

end Environment

/-! ## The caller -/

namespace Config

variable {t overrides : Table} {k : Text}

/-- The switches of a caller. -/
def switches : List Text := [.ofString "verbose", .ofString "quiet"]

/-- A switch that is on. -/
def Table.isOn (t : Table) (switch : String) : Bool := (t.get? (.ofString switch)).any (!·.isFalsy)

/-- A value that says something. -/
def isGiven : Value → Bool
  | .null => false
  | _ => true

/-- What a caller says of a name. -/
def spoken? (overrides : Table) (k : Text) : Option Value :=
  if k ∈ switches then none
  else if k = Field.verbosity.key ∧ overrides.isOn "quiet" then some (.str "quiet")
  else if k = Field.verbosity.key ∧ overrides.isOn "verbose" then some (.str "verbose")
  else (overrides.get? k).filter isGiven

theorem get?_switched (switch : String) : (switched switch t).get? k =
    if k = .ofString switch then none
    else if k = Field.verbosity.key ∧ t.isOn switch then some (.str switch)
    else t.get? k := by
  simp only [switched]
  split
  · next hoff =>
    by_cases hk : k = .ofString switch
    · simp [hk, hoff]
    · simp [hk, Table.isOn, hoff]
  · next v hv =>
    rw [Table.get?_filter_ne]
    by_cases hk : k = .ofString switch
    · simp [hk]
    · cases hfalsy : v.isFalsy <;> simp [hk, Table.isOn, hv, hfalsy, Table.get?_put, eq_comm]

theorem Table.Distinct.switched (h : t.Distinct) (switch : String) : (switched switch t).Distinct := by
  simp only [Config.switched]
  split
  · exact h
  · refine Distinct.filter ?_ _
    split
    · exact h
    · exact h.put

/-- The first switch leaves the second as it is. -/
theorem isOn_switched : (switched "verbose" t).isOn "quiet" = t.isOn "quiet" := by
  have hverbose : Text.ofString "quiet" ≠ .ofString "verbose" := by decide
  have hverbosity : Text.ofString "quiet" ≠ Field.verbosity.key := by decide
  simp [Table.isOn, get?_switched, hverbose, hverbosity]

theorem applySwitches_distinct (h : overrides.Distinct) : (applySwitches overrides).Distinct :=
  (h.switched "verbose").switched "quiet"

theorem said_distinct (h : overrides.Distinct) : (said overrides).Distinct := (applySwitches_distinct h).filter _

theorem get?_said (h : overrides.Distinct) : (said overrides).get? k = spoken? overrides k := by
  have hsaid : said overrides = (applySwitches overrides).filter fun x => isGiven x.2 := rfl
  rw [hsaid, Table.get?_filter_value (applySwitches_distinct h), applySwitches, get?_switched, get?_switched,
    isOn_switched, spoken?]
  by_cases hverbose : k = .ofString "verbose"
  · have hverbosity : Text.ofString "verbose" ≠ Field.verbosity.key := by decide
    simp [switches, hverbose, hverbosity]
  by_cases hquiet : k = .ofString "quiet"
  · simp [switches, hquiet]
  have hswitch : k ∉ switches := by simp [switches, hverbose, hquiet]
  rw [if_neg hquiet, if_neg hverbose, if_neg hswitch]
  split
  · rfl
  · split <;> rfl

/-- All names that the caller speaks of are fields if those are that he gives a value, the switches
apart. -/
theorem names_said_iff (h : overrides.Distinct) :
    (∀ k ∈ (said overrides).names, IsField k) ↔
      ∀ k v, (k, v) ∈ overrides → isGiven v → k ∉ switches → IsField k := by
  have hnames : ∀ k, k ∈ (said overrides).names ↔ spoken? overrides k ≠ none := fun k => by
    rw [← get?_said h, ne_eq, Table.get?_eq_none, not_not]
  simp only [hnames, spoken?]
  constructor
  · intro hall k v hmem hgiven hswitch
    refine hall k ?_
    rw [if_neg hswitch, Table.get?_of_mem h hmem, Option.filter_some, if_pos hgiven]
    split
    · simp
    · split <;> simp
  · intro hall k hspoken
    split at hspoken
    · exact absurd rfl hspoken
    · next hswitch =>
      split at hspoken
      · next hk => exact ⟨.verbosity, hk.1⟩
      · split at hspoken
        · next hk => exact ⟨.verbosity, hk.1⟩
        · obtain ⟨v, hv⟩ := Option.ne_none_iff_exists'.1 hspoken
          obtain ⟨hget, hgiven⟩ := Option.filter_eq_some_iff.1 hv
          exact hall k v (Table.mem_of_get? hget) hgiven hswitch

/-! ## All sources -/

variable {w : Workspace} {named : Option Path} {c : Config}

theorem readTable_distinct {label path : String} {bytes : List UInt8} (h : readTable w label path bytes = .ok t) :
    t.Distinct := by
  simp only [readTable] at h
  split at h
  · cases h
  · split at h
    · next hparse =>
      cases h
      exact Toml.parse_distinct hparse
    · cases h
    · cases h
    · cases h

theorem tableAt_distinct {label : String} {p : Place} (h : tableAt w label p = .ok t) : t.Distinct := by
  simp only [tableAt] at h
  split at h
  · cases h
  · split at h
    · cases h
      exact List.nodup_nil
    · split at h
      · cases h
      · exact readTable_distinct h

theorem tableAtHome_distinct (h : tableAtHome w = .ok t) : t.Distinct := by
  simp only [tableAtHome] at h
  split at h
  · cases h
  · exact tableAt_distinct h

theorem tableNamed_distinct (h : tableNamed w named = .ok t) : t.Distinct := by
  cases named with
  | none =>
    cases h
    exact List.nodup_nil
  | some p =>
    simp only [tableNamed] at h
    split at h
    · cases h
    · split at h
      · cases h
      · split at h
        · cases h
        · exact readTable_distinct h

namespace Files

variable (files : Files w named)

theorem distinct (l : Layer) : (files.table l).Distinct := by
  cases l with
  | home => exact tableAtHome_distinct (files.loaded .home)
  | project => exact tableAt_distinct (files.loaded .project)
  | explicit => exact tableNamed_distinct (files.loaded .explicit)

theorem get?_mergedWith {env said : Table} (henv : env.Distinct) (hsaid : said.Distinct) :
    (files.mergedWith env said).get? k =
      (said.get? k).or ((env.get? k).or (((files.table .explicit).get? k).or
        (((files.table .project).get? k).or ((files.table .home).get? k)))) := by
  simp only [mergedWith, Table.get?_merge, hsaid, henv, files.distinct, Table.get?_nil, Option.or_none]

theorem forall_names_mergedWith {env said : Table} {p : Text → Prop} (henv : env.Distinct)
    (hsaid : said.Distinct) :
    (∀ k ∈ (files.mergedWith env said).names, p k) ↔
      (∀ l, ∀ k ∈ (files.table l).names, p k) ∧ (∀ k ∈ env.names, p k) ∧ ∀ k ∈ said.names, p k := by
  have hnil : ∀ k, k ∉ Table.names [] := fun k => List.not_mem_nil
  have hlayers : (∀ l, ∀ k ∈ (files.table l).names, p k) ↔ (∀ k ∈ (files.table .home).names, p k) ∧
      (∀ k ∈ (files.table .project).names, p k) ∧ ∀ k ∈ (files.table .explicit).names, p k :=
    ⟨fun h => ⟨h .home, h .project, h .explicit⟩, fun ⟨hh, hp, he⟩ l => by cases l <;> assumption⟩
  simp only [mergedWith, Table.mem_names_merge, hsaid, henv, files.distinct, hnil, false_or, or_imp, forall_and,
    hlayers, and_assoc]

/-- **The value that a field takes**: the first that there is of what the caller says, what the variable
gives, and what the files have, the one that was named before that of the project and that before the
one at home; else the standard value. -/
def value (overrides : Table) (f : Field) : Value :=
  ((spoken? overrides f.key).or <| (Environment.given? w.environment f).or <|
    ((files.table .explicit).get? f.key).or <| ((files.table .project).get? f.key).or <|
    (files.table .home).get? f.key).getD f.default

theorem getD_mergedWith (hd : overrides.Distinct) (f : Field) :
    ((files.mergedWith (Environment.given w.environment Field.all) (said overrides)).get? f.key).getD f.default =
      files.value overrides f := by
  rw [files.get?_mergedWith (Environment.given_distinct _) (said_distinct hd), get?_said hd, Environment.get?_given,
    Files.value]

end Files

theorem table_ok {env : Environment.Variables} {t : Table} : Environment.table env = .ok t ↔
    (∀ f, Environment.Converts env f) ∧ t = Environment.given env Field.all := by
  rw [Environment.table, Environment.collect_ok]
  simp [Field.mem_all]

/-- A configuration that the sources give: every variable that is set can be converted, every name is
that of a field, every field has the value that it takes, and all rules pass. -/
structure Chosen (files : Files w named) (overrides : Table) (c : Config) : Prop where
  converted : ∀ f, Environment.Converts w.environment f
  known : ∀ l, ∀ k ∈ (files.table l).names, IsField k
  spoken : ∀ k v, (k, v) ∈ overrides → isGiven v → k ∉ switches → IsField k
  value : ∀ f, c.get f = files.value overrides f
  passes : ∀ r ∈ rules, c.Passes r

theorem eq_ofTable_iff : c = ofTable t ↔ ∀ f, c.get f = (t.get? f.key).getD f.default := by
  constructor
  · rintro rfl f
    rfl
  · intro h
    obtain ⟨get⟩ := c
    exact congrArg Config.mk (funext h)

/-- **A configuration is loaded by precedence.** Whatever the files, the environment and what the caller
says, each name once: loading gives a configuration exactly when all files can be read and choose it,
field by field. So it gives none if a file has a name that is not that of a field, or if the caller gives
a value to one that is neither that of a field nor a switch. -/
theorem loaded_by_precedence (hd : overrides.Distinct) (w : Workspace) (named : Option Path) (c : Config) :
    load w named overrides = .ok c ↔ ∃ files : Files w named, Chosen files overrides c := by
  have hsaid := said_distinct hd
  have henv := Environment.given_distinct w.environment
  have hfields : ∀ k ∈ (Environment.given w.environment Field.all).names, IsField k := fun k hk => by
    obtain ⟨f, -, rfl⟩ := List.mem_map.1 ((Environment.names_given_sublist _ _).subset hk)
    exact ⟨f, rfl⟩
  rw [load_ok]
  constructor
  · rintro ⟨t, hmerged, hknown, hc, hpasses⟩
    obtain ⟨files, env, htable, rfl⟩ := merged_ok.1 hmerged
    obtain ⟨hconverted, rfl⟩ := table_ok.1 htable
    obtain ⟨hfiles, -, hnames⟩ := (files.forall_names_mergedWith henv hsaid).1 (unknownNames_eq_nil.1 hknown)
    refine ⟨files, hconverted, hfiles, (names_said_iff hd).1 hnames, fun f => ?_, hpasses⟩
    rw [eq_ofTable_iff.1 hc, files.getD_mergedWith hd]
  · rintro ⟨files, h⟩
    refine ⟨_, merged_ok.2 ⟨files, _, table_ok.2 ⟨h.converted, rfl⟩, rfl⟩, ?_, ?_, h.passes⟩
    · rw [unknownNames_eq_nil, files.forall_names_mergedWith henv hsaid]
      exact ⟨h.known, hfields, (names_said_iff hd).2 h.spoken⟩
    · refine eq_ofTable_iff.2 fun f => ?_
      rw [h.value, files.getD_mergedWith hd]

/-- All three files, two variables that are set, one of them to no value, and a caller who leaves a field
open and turns on both switches. -/
theorem loaded_by_precedence_layers :
    let w : Workspace := {
      environment := [("CODECOMPLEXITY_WORKERS", "none"), ("CODECOMPLEXITY_SERVER_PORT", "9001")]
      nodes := [
        (['.' :: fileName.toList], .file "max_files = 5\nworkers = 2\n".toUTF8.toList true true),
        ([fileName.toList], .file "max_files = 7\n".toUTF8.toList true true),
        (["x.toml".toList], .file "server_port = 9000\n".toUTF8.toList true true)] }
    let overrides : Table :=
      [(Field.maxFiles.key, .null), (.ofString "verbose", .bool true), (.ofString "quiet", .int 1)]
    overrides.Distinct ∧ ∃ c, load w (some ⟨0, ["x.toml".toList]⟩) overrides = .ok c ∧
      c.get .verbosity = .str "quiet" ∧ c.get .serverPort = .int 9001 ∧ c.get .workers = .null ∧
      c.get .maxFiles = .int 7 ∧ c.get .language = .str "java" := by
  intro w overrides
  have hd : overrides.Distinct := by decide
  have hhome : Layer.table w (some ⟨0, ["x.toml".toList]⟩) .home =
      .ok [(Field.maxFiles.key, .int 5), (Field.workers.key, .int 2)] := by with_unfolding_all rfl
  have hproject : Layer.table w (some ⟨0, ["x.toml".toList]⟩) .project = .ok [(Field.maxFiles.key, .int 7)] := by
    with_unfolding_all rfl
  have hexplicit : Layer.table w (some ⟨0, ["x.toml".toList]⟩) .explicit =
      .ok [(Field.serverPort.key, .int 9000)] := by with_unfolding_all rfl
  have hchosen : Chosen (.ofTables hhome hproject hexplicit) overrides
      ⟨(Files.ofTables hhome hproject hexplicit).value overrides⟩ := {
    converted := (table_ok.1 rfl).1
    known := fun l => by cases l <;> exact unknownNames_eq_nil.1 rfl
    spoken := fun k v hmem hgiven hswitch => by
      simp only [overrides, List.mem_cons, List.not_mem_nil, or_false, Prod.mk.injEq] at hmem
      rcases hmem with ⟨rfl, rfl⟩ | ⟨rfl, rfl⟩ | ⟨rfl, rfl⟩
      · cases hgiven
      · exact absurd (by decide) hswitch
      · exact absurd (by decide) hswitch
    value := fun f => rfl
    passes := firstBroken_none.1 rfl }
  exact ⟨hd, _, (loaded_by_precedence hd _ _ _).2 ⟨_, hchosen⟩, rfl, rfl, rfl, rfl, rfl⟩

end Config

end Maintainability
