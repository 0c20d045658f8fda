/-
Tables of named values, looked at through `Table.get?`. A table that gives no name twice (`Distinct`)
and is merged into another one overrides it name by name (`get?_merge`). What a document of TOML holds
is such a table (`Toml.parse_distinct`): whatever a statement adds, it adds under a name that is free or
puts in the place of what the name had.
-/
import Mathlib.Data.List.Nodup
import Maintainability.Config.Load

namespace Maintainability

namespace Config.Table

/-- The names of a table. -/
def names (t : Table) : List Text := t.map (·.1)

/-- A table that gives no name twice. -/
def Distinct (t : Table) : Prop := t.names.Nodup

instance (t : Table) : Decidable t.Distinct := inferInstanceAs (Decidable t.names.Nodup)

variable {t other : Table} {j k : Text} {v : Value}

theorem get?_nil : Table.get? [] k = none := rfl

theorem get?_cons : Table.get? ((j, v) :: t) k = if j = k then some v else Table.get? t k := by
  by_cases h : j = k <;> simp [Table.get?, h]

theorem get?_eq_none : t.get? k = none ↔ k ∉ t.names := by
  induction t with
  | nil => simp [get?_nil, names]
  | cons x t ih =>
    obtain ⟨j, w⟩ := x
    rw [get?_cons]
    by_cases h : j = k
    · simp [names, h]
    · rw [if_neg h, ih]
      simp [names, Ne.symm h]

theorem mem_of_get? (h : t.get? k = some v) : (k, v) ∈ t := by
  obtain ⟨⟨j, w⟩, hfind, rfl⟩ := Option.map_eq_some_iff.1 h
  have hj : j = k := by simpa using List.find?_some hfind
  exact hj ▸ List.mem_of_find?_eq_some hfind

theorem get?_of_mem (hd : t.Distinct) (h : (k, v) ∈ t) : t.get? k = some v := by
  induction t with
  | nil => cases h
  | cons x t ih =>
    obtain ⟨j, w⟩ := x
    obtain ⟨hj, ht⟩ := List.nodup_cons.1 hd
    rw [get?_cons]
    rcases List.mem_cons.1 h with he | h
    · cases he
      rw [if_pos rfl]
    · have hne : j ≠ k := by
        rintro rfl
        exact hj (List.mem_map.2 ⟨_, h, rfl⟩)
      rw [if_neg hne, ih ht h]

theorem get?_put : (t.put j v).get? k = if j = k then some v else t.get? k := by
  induction t with
  | nil => simp [Table.put, get?_cons, get?_nil]
  | cons x t ih =>
    obtain ⟨i, w⟩ := x
    rw [Table.put]
    by_cases hij : i = j
    · rw [if_pos hij, get?_cons, get?_cons, hij]
      split <;> rfl
    · rw [if_neg hij, get?_cons, get?_cons, ih]
      by_cases hik : i = k
      · have hjk : j ≠ k := fun h => hij (hik.trans h.symm)
        simp [hik, hjk]
      · simp [hik]

theorem mem_names_put : k ∈ (t.put j v).names ↔ k = j ∨ k ∈ t.names := by
  rw [← not_iff_not, ← get?_eq_none, get?_put, not_or, ← get?_eq_none]
  by_cases h : j = k
  · simp [h]
  · simp [h, Ne.symm h]

theorem Distinct.put (h : t.Distinct) : (t.put j v).Distinct := by
  induction t with
  | nil => simp [Table.put, Distinct, names]
  | cons x t ih =>
    obtain ⟨i, w⟩ := x
    obtain ⟨hi, ht⟩ := List.nodup_cons.1 h
    rw [Table.put]
    by_cases hij : i = j
    · rw [if_pos hij]
      exact h
    · rw [if_neg hij]
      refine List.nodup_cons.2 ⟨fun hmem => ?_, ih ht⟩
      rcases mem_names_put.1 hmem with he | hmem
      · exact hij he
      · exact hi hmem

theorem Distinct.append (h : t.Distinct) (hk : t.get? k = none) : Distinct (t ++ [(k, v)]) := by
  have hnames : names (t ++ [(k, v)]) = t.names ++ [k] := List.map_append
  have hk := get?_eq_none.1 hk
  rw [Distinct, hnames, List.nodup_append]
  refine ⟨h, List.nodup_singleton k, fun a ha b hb => ?_⟩
  rintro rfl
  exact hk (List.mem_singleton.1 hb ▸ ha)

theorem Distinct.filter (h : t.Distinct) (p : Text × Value → Bool) : Distinct (t.filter p) :=
  h.sublist (List.filter_sublist.map _)

theorem get?_filter_ne : Table.get? (t.filter (·.1 != j)) k = if k = j then none else t.get? k := by
  induction t with
  | nil => simp [get?_nil]
  | cons x t ih =>
    obtain ⟨i, w⟩ := x
    by_cases hij : i = j
    · rw [List.filter_cons_of_neg (by simpa using hij), ih, get?_cons]
      by_cases hk : k = j
      · simp [hk]
      · have hik : i ≠ k := fun h => hk (h.symm.trans hij)
        simp [hk, hik]
    · rw [List.filter_cons_of_pos (by simpa using hij), get?_cons, get?_cons, ih]
      by_cases hik : i = k
      · have hkj : k ≠ j := fun h => hij (hik.trans h)
        simp [hik, hkj]
      · simp [hik]

theorem get?_filter_value (h : t.Distinct) (p : Value → Bool) :
    Table.get? (t.filter fun x => p x.2) k = (t.get? k).filter p := by
  induction t with
  | nil => rfl
  | cons x t ih =>
    obtain ⟨i, w⟩ := x
    obtain ⟨hi, ht⟩ := List.nodup_cons.1 h
    rw [get?_cons, List.filter_cons]
    by_cases hik : i = k
    · have hnone : Table.get? t k = none := get?_eq_none.2 (hik ▸ hi)
      cases hp : p w <;> simp [hik, hp, get?_cons, ih ht, hnone, Option.filter_some]
    · cases p w <;> simp [hik, get?_cons, ih ht]

/-- **A table overrides the one that it is merged into**, name by name. -/
theorem get?_merge (h : other.Distinct) : (t.merge other).get? k = (other.get? k).or (t.get? k) := by
  induction other generalizing t with
  | nil => rfl
  | cons x other ih =>
    obtain ⟨i, w⟩ := x
    obtain ⟨hi, hother⟩ := List.nodup_cons.1 h
    have hstep : t.merge ((i, w) :: other) = (t.put i w).merge other := rfl
    rw [hstep, ih hother, get?_put, get?_cons]
    by_cases hik : i = k
    · have hnone : Table.get? other k = none := get?_eq_none.2 (hik ▸ hi)
      simp [hik, hnone]
    · simp [hik]

theorem mem_names_merge (h : other.Distinct) : k ∈ (t.merge other).names ↔ k ∈ t.names ∨ k ∈ other.names := by
  rw [← not_iff_not, not_or, ← get?_eq_none, ← get?_eq_none, ← get?_eq_none, get?_merge h, Option.or_eq_none_iff]
  exact and_comm

end Config.Table

/-! ## Documents -/

namespace Toml

open Config Config.Table

variable {k : Text} {ms ns : Members} {v : Value}

theorem put_eq : put k v ms = Table.put ms k v := by
  induction ms with
  | nil => rfl
  | cons x ms ih => rw [put, Table.put, ih]

theorem required_eq_ok {α : Type} {o : Option α} {a : α} (h : required o = .ok a) : o = some a := by
  cases o <;> cases h
  rfl

/-- A change that keeps names distinct. -/
def Keeps (f : Members → Option Members) : Prop :=
  ∀ ⦃ms ns⦄, Distinct ms → f ms = some ns → Distinct ns

theorem within?_keeps {through : Bool} {f : Members → Option Members} (hf : Keeps f) :
    ∀ key, Keeps (within? through f key)
  | [], _, _, hd, h => hf hd h
  | k :: ks, ms, ns, hd, h => by
    -- behind a key that is not empty, only the value of its first part changes
    have hput : ∃ v, ns = Table.put ms k v := by
      simp only [within?, put_eq] at h
      split at h
      · obtain ⟨sub, -, rfl⟩ := Option.map_eq_some_iff.1 h
        exact ⟨_, rfl⟩
      · obtain ⟨sub, -, rfl⟩ := Option.map_eq_some_iff.1 h
        exact ⟨_, rfl⟩
      · split at h
        · cases h
        · split at h
          · obtain ⟨sub, -, rfl⟩ := Option.map_eq_some_iff.1 h
            exact ⟨_, rfl⟩
          · cases h
      · cases h
    obtain ⟨v, rfl⟩ := hput
    exact hd.put

theorem insert?_keeps (through : Bool) (parent : Key) (name : Text) (v : Value) :
    Keeps (insert? through parent name v) := by
  refine within?_keeps (fun ms ns hd h => ?_) parent
  split at h
  · cases h
  · next hfree =>
    cases h
    exact hd.append (Option.not_isSome_iff_eq_none.1 hfree)

theorem append?_keeps (name : Text) : Keeps (append? name) := by
  intro ms ns hd h
  simp only [append?, put_eq] at h
  split at h
  · next hfree =>
    cases h
    exact hd.append hfree
  · cases h
    exact hd.put
  · cases h

theorem Draft.assign?_distinct {d e : Draft} {key : Key} (hd : Distinct d.members)
    (h : d.assign? key v = some e) : Distinct e.members := by
  simp only [Draft.assign?, bind, Option.bind_eq_some_iff] at h
  obtain ⟨name, -, h⟩ := h
  split at h
  · cases h
  · split at h
    · cases h
    · obtain ⟨ms, hms, he⟩ := Option.bind_eq_some_iff.1 h
      cases he
      exact insert?_keeps _ _ _ _ hd hms

theorem Draft.openTable?_distinct {d e : Draft} {key : Key} (hd : Distinct d.members)
    (h : d.openTable? key = some e) : Distinct e.members := by
  simp only [Draft.openTable?] at h
  split at h
  · cases h
  · obtain ⟨ms, hms, rfl⟩ := Option.map_eq_some_iff.1 h
    have hsome : Keeps some := fun _ _ hd h => by
      cases h
      exact hd
    exact within?_keeps hsome key hd hms

theorem Draft.openItem?_distinct {d e : Draft} {key : Key} (hd : Distinct d.members)
    (h : d.openItem? key = some e) : Distinct e.members := by
  simp only [Draft.openItem?, bind, Option.bind_eq_some_iff] at h
  obtain ⟨name, -, h⟩ := h
  split at h
  · cases h
  · obtain ⟨ms, hms, he⟩ := Option.bind_eq_some_iff.1 h
    cases he
    exact within?_keeps (append?_keeps name) _ hd hms

/-- A statement adds to what was read without giving a name twice. -/
theorem statement_distinct {calls : Nat} {d e : Draft} {cs rest : Input} (hd : Distinct d.members)
    (h : statement calls d cs = .ok (e, rest)) : Distinct e.members := by
  simp only [statement] at h
  split at h
  · obtain ⟨⟨key, after⟩, -, h⟩ := bind_eq_ok.1 h
    obtain ⟨e', he, h⟩ := bind_eq_ok.1 h
    obtain ⟨after, -, h⟩ := bind_eq_ok.1 h
    obtain ⟨after, -, h⟩ := bind_eq_ok.1 h
    cases h
    exact Draft.openItem?_distinct (d := d.settle) hd (required_eq_ok he)
  · obtain ⟨⟨key, after⟩, -, h⟩ := bind_eq_ok.1 h
    obtain ⟨e', he, h⟩ := bind_eq_ok.1 h
    obtain ⟨after, -, h⟩ := bind_eq_ok.1 h
    cases h
    exact Draft.openTable?_distinct (d := d.settle) hd (required_eq_ok he)
  · cases h
    exact hd
  · obtain ⟨⟨key, v, after⟩, -, h⟩ := bind_eq_ok.1 h
    obtain ⟨e', he, h⟩ := bind_eq_ok.1 h
    cases h
    exact Draft.assign?_distinct hd (required_eq_ok he)

theorem lines_distinct {calls : Nat} : ∀ {fuel : Nat} {d : Draft} {cs : Input}, Distinct d.members →
    lines calls fuel d cs = .ok ms → Distinct ms
  | 0, _, _, _, h => by cases h
  | fuel + 1, d, cs, hd, h => by
    rw [lines] at h
    split at h
    · cases h
      exact hd
    · exact lines_distinct hd h
    · obtain ⟨⟨e, after⟩, he, h⟩ := bind_eq_ok.1 h
      obtain ⟨after, -, h⟩ := bind_eq_ok.1 h
      have hd' := statement_distinct hd he
      split at h
      · cases h
        exact hd'
      · exact lines_distinct hd' h
      · cases h

/-- **A document gives no name twice.** -/
theorem parse_distinct {calls : Nat} {cs : Input} (h : parse calls cs = .ok ms) : Distinct ms := by
  have hempty : Distinct ({} : Draft).members := List.nodup_nil
  exact lines_distinct hempty h

end Toml

end Maintainability
