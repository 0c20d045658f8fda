/-
The links between files. Two different files are linked when some digest was recorded in both
(`Recorded.Shared`), and the links that an index resolves to are exactly these (`mem_links`). A link
is added once in each direction, so the files linked to a file are distinct, and sorted they are the
same for any order of recording (`sortedLinks_perm`).
-/
import Maintainability.Proofs.Recorded

namespace Maintainability

namespace Links

@[simp] theorem get_nil (p : String) : get [] p = [] := rfl

theorem get_cons (k : String) (others : List String) (rest : Links) (p : String) :
    get ((k, others) :: rest) p = if k = p then others else get rest p := by
  by_cases h : k = p <;> simp [get, h]

/-- A link in one direction shows at its source only, and no link is added twice. -/
theorem get_add (links : Links) (a b p : String) :
    (links.add a b).get p =
      if p = a then (if b ∈ links.get a then links.get a else links.get a ++ [b]) else links.get p := by
  induction links with
  | nil =>
    by_cases h : p = a
    · simp [add, get_cons, h]
    · have h' : ¬ a = p := fun e => h e.symm
      simp [add, get_cons, h, h']
  | cons x rest ih =>
    obtain ⟨k, others⟩ := x
    rw [add]
    by_cases hk : k = a
    · subst hk
      by_cases h : p = k
      · simp [get_cons, h]
      · have h' : ¬ k = p := fun e => h e.symm
        simp [get_cons, h, h']
    · rw [if_neg hk, get_cons, get_cons, get_cons, if_neg hk, ih]
      by_cases hkp : k = p
      · have hpa : ¬ p = a := fun e => hk (hkp.trans e)
        rw [if_pos hkp, if_pos hkp, if_neg hpa]
      · rw [if_neg hkp, if_neg hkp]

theorem mem_get_add {links : Links} {a b p q : String} :
    q ∈ (links.add a b).get p ↔ q ∈ links.get p ∨ (p = a ∧ q = b) := by
  rw [get_add]
  by_cases hp : p = a
  · subst hp
    by_cases hb : b ∈ links.get p
    · simp only [if_true, hb, true_and]
      exact ⟨.inl, fun h => h.elim id fun e => e ▸ hb⟩
    · simp [hb]
  · simp [hp]

theorem nodup_get_add {links : Links} (h : ∀ p, (links.get p).Nodup) (a b p : String) :
    ((links.add a b).get p).Nodup := by
  rw [get_add]
  split
  · split
    · exact h a
    · next hb =>
      rw [← List.concat_eq_append]
      exact (h a).concat hb
  · exact h p

theorem mem_get_connect {links : Links} {x : String × String} {p q : String} :
    q ∈ (links.connect x).get p ↔ q ∈ links.get p ∨ (p, q) = x ∨ (q, p) = x := by
  obtain ⟨a, b⟩ := x
  simp only [connect, mem_get_add, Prod.mk.injEq]
  tauto

theorem nodup_get_connect {links : Links} (h : ∀ p, (links.get p).Nodup) (x : String × String)
    (p : String) : ((links.connect x).get p).Nodup :=
  nodup_get_add (nodup_get_add h _ _) _ _ p

theorem mem_get_foldl_connect {p q : String} : ∀ (ps : List (String × String)) (links : Links),
    q ∈ (ps.foldl connect links).get p ↔ q ∈ links.get p ∨ (p, q) ∈ ps ∨ (q, p) ∈ ps
  | [], links => by simp
  | x :: ps, links => by
    rw [List.foldl_cons, mem_get_foldl_connect ps, mem_get_connect]
    simp only [List.mem_cons]
    tauto

theorem nodup_get_foldl_connect : ∀ (ps : List (String × String)) {links : Links},
    (∀ p, (links.get p).Nodup) → ∀ p, ((ps.foldl connect links).get p).Nodup
  | [], _, h => h
  | x :: ps, _, h => nodup_get_foldl_connect ps (nodup_get_connect h x)

end Links

/-! ## Pairs of files -/

/-- The pairs of a list without repeats are the pairs of different elements, one way round. -/
theorem mem_pairs {α : Type} {l : List α} (hn : l.Nodup) {a b : α} :
    (a, b) ∈ pairs l ∨ (b, a) ∈ pairs l ↔ a ≠ b ∧ a ∈ l ∧ b ∈ l := by
  induction l with
  | nil => simp [pairs]
  | cons x l ih =>
    obtain ⟨hx, hl⟩ := List.nodup_cons.1 hn
    have ih := ih hl
    simp only [pairs, List.mem_append, List.mem_map, Prod.mk.injEq, List.mem_cons]
    constructor
    · rintro ((⟨y, hy, rfl, rfl⟩ | h) | (⟨y, hy, rfl, rfl⟩ | h))
      · exact ⟨fun e => hx (e ▸ hy), .inl rfl, .inr hy⟩
      · obtain ⟨hab, ha, hb⟩ := ih.1 (.inl h)
        exact ⟨hab, .inr ha, .inr hb⟩
      · exact ⟨fun e => hx (e ▸ hy), .inr hy, .inl rfl⟩
      · obtain ⟨hab, ha, hb⟩ := ih.1 (.inr h)
        exact ⟨hab, .inr ha, .inr hb⟩
    · rintro ⟨hab, rfl | ha, rfl | hb⟩
      · exact absurd rfl hab
      · exact .inl (.inl ⟨b, hb, rfl, rfl⟩)
      · exact .inr (.inl ⟨a, ha, rfl, rfl⟩)
      · exact (ih.2 ⟨hab, ha, hb⟩).imp .inr .inr

theorem Entry.mem_files {e : Entry} {p : String} : p ∈ e.files ↔ ∃ o ∈ e.occurrences, o.path = p := by
  simp [Entry.files]

theorem Entry.nodup_files (e : Entry) : e.files.Nodup :=
  (List.mergeSort_perm _ _).nodup_iff.2 (nodup_eraseDups _)

/-- An entry with occurrences in two different files has two occurrences. -/
theorem Entry.isDuplicate_of_files {e : Entry} {p q : String} (hpq : p ≠ q) (hp : p ∈ e.files)
    (hq : q ∈ e.files) : e.isDuplicate = true := by
  obtain ⟨a, ha, rfl⟩ := Entry.mem_files.1 hp
  obtain ⟨b, hb, rfl⟩ := Entry.mem_files.1 hq
  rw [Entry.isDuplicate, decide_eq_true_iff]
  exact two_le_length (fun h => hpq (congrArg _ h)) ha hb

/-! ## The links of an index -/

/-- Two files are linked when they differ and occur in one entry. -/
theorem Index.mem_links {i : Index} {p q : String} :
    q ∈ i.links.get p ↔ p ≠ q ∧ ∃ e ∈ i.entries, p ∈ e.files ∧ q ∈ e.files := by
  have hfold : ∀ (es : List Entry) (ls : Links),
      q ∈ (es.foldl (fun ls e => (pairs e.files).foldl Links.connect ls) ls).get p ↔
        q ∈ ls.get p ∨ p ≠ q ∧ ∃ e ∈ es, p ∈ e.files ∧ q ∈ e.files := by
    intro es
    induction es with
    | nil => simp
    | cons e es ih =>
      intro ls
      rw [List.foldl_cons, ih, Links.mem_get_foldl_connect, mem_pairs e.nodup_files]
      simp only [List.exists_mem_cons_iff]
      tauto
  rw [Index.links, hfold]
  simp only [Links.get_nil, List.not_mem_nil, false_or, List.mem_filter]
  refine and_congr_right fun hpq => ⟨?_, ?_⟩
  · rintro ⟨e, ⟨he, -⟩, hp, hq⟩
    exact ⟨e, he, hp, hq⟩
  · rintro ⟨e, he, hp, hq⟩
    exact ⟨e, ⟨he, Entry.isDuplicate_of_files hpq hp hq⟩, hp, hq⟩

theorem Index.nodup_links (i : Index) (p : String) : (i.links.get p).Nodup := by
  have hfold : ∀ (es : List Entry) {ls : Links}, (∀ p, (ls.get p).Nodup) →
      ∀ p, ((es.foldl (fun ls e => (pairs e.files).foldl Links.connect ls) ls).get p).Nodup := by
    intro es
    induction es with
    | nil => exact fun h => h
    | cons e es ih => exact fun h => ih (Links.nodup_get_foldl_connect _ h)
  exact hfold _ (fun p => by simp) p

namespace Recorded

/-- Two different files have a digest in common. -/
def Shared (r : Recorded) (p q : String) : Prop :=
  p ≠ q ∧ ∃ d a b, (d, a) ∈ r ∧ (d, b) ∈ r ∧ a.path = p ∧ b.path = q

theorem Shared.symm {r : Recorded} {p q : String} (h : Shared r p q) : Shared r q p := by
  obtain ⟨hpq, d, a, b, ha, hb, hp, hq⟩ := h
  exact ⟨hpq.symm, d, b, a, hb, ha, hq, hp⟩

/-- The links of an index are the files that share a digest. -/
theorem mem_links {r : Recorded} {p q : String} : q ∈ (index r).links.get p ↔ Shared r p q := by
  rw [Index.mem_links, Shared]
  refine and_congr_right fun _ => ⟨?_, ?_⟩
  · rintro ⟨e, he, hp, hq⟩
    obtain ⟨d, -, rfl⟩ := List.mem_map.1 he
    obtain ⟨a, ha, hap⟩ := Entry.mem_files.1 hp
    obtain ⟨b, hb, hbq⟩ := Entry.mem_files.1 hq
    exact ⟨d, a, b, mem_under.1 ha, mem_under.1 hb, hap, hbq⟩
  · rintro ⟨d, a, b, ha, hb, hap, hbq⟩
    refine ⟨⟨d, under r d⟩, List.mem_map.2 ⟨d, mem_digests.2 ⟨a, ha⟩, rfl⟩, ?_, ?_⟩
    · exact Entry.mem_files.2 ⟨a, mem_under.2 ha, hap⟩
    · exact Entry.mem_files.2 ⟨b, mem_under.2 hb, hbq⟩

/-- The files linked to a file, in ascending order. -/
def sortedLinks (r : Recorded) (p : String) : List String :=
  ((index r).links.get p).mergeSort fun a b => decide (a ≤ b)

theorem mem_sortedLinks {r : Recorded} {p q : String} : q ∈ sortedLinks r p ↔ Shared r p q := by
  rw [sortedLinks, List.mem_mergeSort, mem_links]

theorem sortedLinks_strict (r : Recorded) (p : String) : (sortedLinks r p).Pairwise (· < ·) :=
  sortsBy_string.strict (by simpa using (index r).nodup_links p)

theorem Shared.perm {r₁ r₂ : Recorded} (h : r₁.Perm r₂) {p q : String} : Shared r₁ p q ↔ Shared r₂ p q := by
  simp only [Shared, h.mem_iff]

/-- The order of recording does not show in the links. -/
theorem sortedLinks_perm {r₁ r₂ : Recorded} (h : r₁.Perm r₂) (p : String) :
    sortedLinks r₁ p = sortedLinks r₂ p := by
  refine eq_of_strict (sortedLinks_strict r₁ p) (sortedLinks_strict r₂ p) fun q => ?_
  rw [mem_sortedLinks, mem_sortedLinks, Shared.perm h]

end Recorded

end Maintainability
