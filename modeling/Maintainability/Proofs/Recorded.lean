/-
The index as a record of what was put into it. An open index is the list of all pairs of a digest
and a place recorded so far, grouped by digest (`Recorded.index`): recording a batch appends it to
the list (`recordDigests_index`), and a sealed index accepts nothing.

What is read off an index at the end forgets the order of recording. A group is there exactly when
two or more places were recorded under its digest, and holds them in ascending order
(`mem_duplicateGroups`); so the groups are the same for any two orders (`duplicateGroups_perm`).
-/
import Maintainability.Proofs.Ordering

namespace Maintainability

/-- Digests with the places recorded under them, in the order of recording. -/
abbrev Recorded := List (String × Occurrence)

namespace Recorded

/-- The digests, in the order of first recording. -/
def digests (r : Recorded) : List String := (r.map (·.1)).eraseDups

/-- The places recorded under a digest, in order. -/
def under (r : Recorded) (d : String) : List Occurrence := (r.filter (·.1 = d)).map (·.2)

/-- An open index that holds what was recorded. -/
def index (r : Recorded) : Index := ⟨(digests r).map fun d => ⟨d, under r d⟩, false⟩

theorem mem_digests {r : Recorded} {d : String} : d ∈ digests r ↔ ∃ o, (d, o) ∈ r := by
  simp [digests]

theorem mem_under {r : Recorded} {d : String} {o : Occurrence} : o ∈ under r d ↔ (d, o) ∈ r := by
  simp [under]

theorem nodup_digests (r : Recorded) : (digests r).Nodup := nodup_eraseDups _

theorem index_digests (r : Recorded) : (index r).entries.map Entry.digest = digests r := by
  rw [index, List.map_map]
  exact List.map_id _

theorem under_append (r b : Recorded) (d : String) : under (r ++ b) d = under r d ++ under b d := by
  simp [under]

theorem under_perm {r₁ r₂ : Recorded} (h : r₁.Perm r₂) (d : String) : (under r₁ d).Perm (under r₂ d) :=
  (h.filter _).map _

theorem mem_digests_of_under {r : Recorded} {d : String} (h : under r d ≠ []) : d ∈ digests r := by
  obtain ⟨o, ho⟩ := List.exists_mem_of_ne_nil _ h
  exact mem_digests.2 ⟨o, mem_under.1 ho⟩

/-! ## Recording -/

/-- Filing a place under one of the digests changes the entry of that digest only; under a new
digest it adds an entry. -/
theorem file_map {ds : List String} (hn : ds.Nodup) (f : String → List Occurrence) (d : String)
    (o : Occurrence) :
    Index.file (ds.map fun x => ⟨x, f x⟩) d o =
      if d ∈ ds then ds.map fun x => ⟨x, if x = d then f x ++ [o] else f x⟩
      else (ds.map fun x => ⟨x, f x⟩) ++ [⟨d, [o]⟩] := by
  induction ds with
  | nil => simp [Index.file]
  | cons x ds ih =>
    obtain ⟨hx, hds⟩ := List.nodup_cons.1 hn
    by_cases hxd : x = d
    · subst hxd
      have hother : ∀ y ∈ ds, ¬ y = x := fun y hy hyx => hx (hyx ▸ hy)
      simp only [List.map_cons, Index.file, if_true, List.mem_cons, true_or, List.cons.injEq, true_and]
      exact List.map_congr_left fun y hy => by rw [if_neg (hother y hy)]
    · have hdx : ¬ d = x := fun h => hxd h.symm
      simp only [List.map_cons, Index.file, hxd, if_false, List.mem_cons, hdx, false_or, ih hds]
      split <;> rfl

theorem file_index (r : Recorded) (d : String) (o : Occurrence) :
    Index.file (index r).entries d o = (index (r ++ [(d, o)])).entries := by
  have hsingle : ∀ x, under [(d, o)] x = if x = d then [o] else [] := by
    intro x
    by_cases hx : x = d
    · simp [under, hx]
    · have hdx : ¬ d = x := fun h => hx h.symm
      simp [under, hx, hdx]
  have hdigests : digests (r ++ [(d, o)]) = if d ∈ digests r then digests r else digests r ++ [d] := by
    simp only [digests, List.map_append, List.map_cons, List.map_nil, eraseDups_concat, List.mem_eraseDups]
  simp only [index, file_map (nodup_digests r), hdigests, under_append, hsingle]
  by_cases hd : d ∈ digests r
  · simp only [hd, if_true]
    refine List.map_congr_left fun x _ => ?_
    split <;> simp
  · have hempty : under r d = [] := by
      by_contra h
      exact hd (mem_digests_of_under h)
    simp only [hd, if_false, List.map_append, List.map_cons, List.map_nil, if_true, hempty, List.nil_append,
      List.append_cancel_right_eq]
    refine List.map_congr_left fun x hx => ?_
    have hxd : ¬ x = d := fun h => hd (h ▸ hx)
    rw [if_neg hxd, List.append_nil]

/-- Recording a batch in an open index appends it to what was recorded. -/
theorem recordDigests_index (r b : Recorded) : (index r).recordDigests b = (true, index (r ++ b)) := by
  have hfold : ∀ (b r : Recorded),
      b.foldl (fun es x => Index.file es x.1 x.2) (index r).entries = (index (r ++ b)).entries := by
    intro b
    induction b with
    | nil => intro r; simp
    | cons x b ih =>
      intro r
      rw [List.foldl_cons, file_index, ih, List.append_assoc]
      rfl
  have hopen : (index r).isSealed = false := rfl
  simp only [Index.recordDigests, hopen, Bool.false_eq_true, if_false, hfold, Prod.mk.injEq, true_and]
  rfl

theorem index_nil : ({} : Index) = index [] := rfl

end Recorded

/-- A sealed index accepts nothing. -/
theorem Index.recordDigests_sealed {i : Index} (h : i.isSealed = true) (b : Recorded) :
    i.recordDigests b = (false, i) := by
  simp [Index.recordDigests, h]

theorem Index.close_sealed {i : Index} (h : i.isSealed = true) : i.close = i := by
  rw [Index.close, ← h]

/-! ## Groups -/

/-- A list with two different elements has two or more. -/
theorem two_le_length {α : Type} {l : List α} {a b : α} (hab : a ≠ b) (ha : a ∈ l) (hb : b ∈ l) :
    2 ≤ l.length := by
  match l with
  | [] => simp at ha
  | [c] =>
    simp only [List.mem_singleton] at ha hb
    exact absurd (ha.trans hb.symm) hab
  | _ :: _ :: _ => simp

namespace Recorded

/-- The group of a digest: all places recorded under it, in ascending order. -/
def group (r : Recorded) (d : String) : Entry := ⟨d, (under r d).mergeSort Occurrence.le⟩

theorem group_mem {r : Recorded} {d : String} (h : 2 ≤ (under r d).length) :
    group r d ∈ (index r).duplicateGroups := by
  have hne : under r d ≠ [] := by
    intro hnil
    simp [hnil] at h
  have hentry : (⟨d, under r d⟩ : Entry) ∈ (index r).entries.filter (·.isDuplicate) :=
    List.mem_filter.2 ⟨List.mem_map.2 ⟨d, mem_digests_of_under hne, rfl⟩, by simpa [Entry.isDuplicate] using h⟩
  exact List.mem_mergeSort.2 (List.mem_map.2 ⟨_, hentry, rfl⟩)

/-- The groups are those of the digests with two or more places. -/
theorem mem_duplicateGroups {r : Recorded} {g : Entry} :
    g ∈ (index r).duplicateGroups ↔ 2 ≤ (under r g.digest).length ∧ g = group r g.digest := by
  constructor
  · intro hg
    obtain ⟨e, he, rfl⟩ := List.mem_map.1 (List.mem_mergeSort.1 hg)
    obtain ⟨he, hdup⟩ := List.mem_filter.1 he
    obtain ⟨d, -, rfl⟩ := List.mem_map.1 he
    exact ⟨by simpa [Entry.isDuplicate, Entry.sorted] using hdup, rfl⟩
  · rintro ⟨htwo, hg⟩
    rw [hg]
    exact group_mem htwo

/-- What stands in a group was recorded under its digest. -/
theorem mem_of_mem_group {r : Recorded} {g : Entry} (hg : g ∈ (index r).duplicateGroups) {o : Occurrence}
    (ho : o ∈ g.occurrences) : (g.digest, o) ∈ r := by
  rw [(mem_duplicateGroups.1 hg).2, group, List.mem_mergeSort] at ho
  exact mem_under.1 ho

/-- The digests of the groups are strictly increasing. -/
theorem duplicateGroups_strict (r : Recorded) :
    (index r).duplicateGroups.Pairwise fun a b => a.digest < b.digest := by
  refine sortsBy_digest.strict ?_
  have hsub : (((index r).entries.filter (·.isDuplicate)).map Entry.sorted).map Entry.digest =
      ((index r).entries.filter (·.isDuplicate)).map Entry.digest := by
    rw [List.map_map]
    rfl
  rw [hsub]
  refine List.Nodup.sublist (List.Sublist.map _ List.filter_sublist) ?_
  rw [index_digests]
  exact nodup_digests r

/-- The order of recording does not show in the groups. -/
theorem duplicateGroups_perm {r₁ r₂ : Recorded} (h : r₁.Perm r₂) :
    (index r₁).duplicateGroups = (index r₂).duplicateGroups := by
  refine eq_of_strict (duplicateGroups_strict r₁) (duplicateGroups_strict r₂) fun g => ?_
  have hlen := (under_perm h g.digest).length_eq
  have hsort := sortsBy_occurrence.eq_of_perm (under_perm h g.digest)
    fun a _ b _ hab => Occurrence.key_injective hab
  rw [mem_duplicateGroups, mem_duplicateGroups, group, group, hlen, hsort]

end Recorded

end Maintainability
