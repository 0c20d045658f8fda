/-
The links that an index resolves to, read as a mapping: each file that has links, with the set of the
files linked to it (`Links.toMap`). The links are kept as a list, and the list is a mapping indeed: no
file has two entries, and none has an empty one (`Links.Tight`). So the mapping is determined by which
files are linked, which is to share a digest in the log of the index; its order and its batches leave
no trace (`resolved_links_exact`).
-/
import Mathlib.Data.Finset.Dedup
import Maintainability.Proofs.Links
import Maintainability.Proofs.Refinement

namespace Maintainability

namespace Links

/-- The set of the files linked to a file, if there are any. -/
def toMap (links : Links) (p : String) : Option (Finset String) :=
  (links.find? (·.1 == p)).map fun entry => entry.2.toFinset

/-- One entry for each file that has links, and none for the others. -/
structure Tight (links : Links) : Prop where
  distinct : (links.map (·.1)).Nodup
  nonempty : ∀ entry ∈ links, entry.2 ≠ []

theorem Tight.nil : Tight [] := ⟨List.nodup_nil, by simp⟩

theorem mem_keys_add {links : Links} {a b k : String} :
    k ∈ (links.add a b).map (·.1) ↔ k ∈ links.map (·.1) ∨ k = a := by
  induction links with
  | nil => simp [add]
  | cons entry rest ih =>
    obtain ⟨p, others⟩ := entry
    unfold add
    split
    · next hp =>
      simp only [List.map_cons, List.mem_cons]
      constructor
      · exact .inl
      · rintro (h | rfl)
        · exact h
        · exact .inl hp.symm
    · simp only [List.map_cons, List.mem_cons, ih, or_assoc]

theorem Tight.add {links : Links} (h : links.Tight) (a b : String) : (links.add a b).Tight := by
  induction links with
  | nil => exact ⟨by simp [Links.add], by simp [Links.add]⟩
  | cons entry rest ih =>
    obtain ⟨p, others⟩ := entry
    have hkeys := List.nodup_cons.1 h.distinct
    have hothers : others ≠ [] := h.nonempty (p, others) (by simp)
    have hrest : Tight rest := ⟨hkeys.2, fun e he => h.nonempty e (by simp [he])⟩
    unfold Links.add
    split
    · refine ⟨h.distinct, fun e he => ?_⟩
      rcases List.mem_cons.1 he with rfl | he
      · dsimp only
        split
        · exact hothers
        · simp
      · exact hrest.nonempty e he
    · next hp =>
      have ih := ih hrest
      refine ⟨List.nodup_cons.2 ⟨fun hmem => ?_, ih.distinct⟩, fun e he => ?_⟩
      · rcases mem_keys_add.1 hmem with hmem | hpa
        · exact hkeys.1 hmem
        · exact hp hpa
      · rcases List.mem_cons.1 he with rfl | he
        · exact hothers
        · exact ih.nonempty e he

theorem Tight.connect {links : Links} (h : links.Tight) (x : String × String) : (links.connect x).Tight :=
  (h.add x.1 x.2).add x.2 x.1

/-- Tight links map a file to what is linked to it, and to nothing else. -/
theorem Tight.toMap_eq {links : Links} (h : links.Tight) (p : String) :
    links.toMap p = if links.get p = [] then none else some (links.get p).toFinset := by
  unfold toMap get
  cases hfound : links.find? (·.1 == p) with
  | none => simp
  | some entry =>
    have hne : entry.2 ≠ [] := h.nonempty entry (List.mem_of_find?_eq_some hfound)
    simp [hne]

theorem Tight.mem_toMap {links : Links} (h : links.Tight) {p q : String} :
    (∃ others, links.toMap p = some others ∧ q ∈ others) ↔ q ∈ links.get p := by
  rw [h.toMap_eq]
  by_cases hnone : links.get p = []
  · simp [hnone]
  · simp [hnone]

theorem Tight.toMap_ne_empty {links : Links} (h : links.Tight) (p : String) : links.toMap p ≠ some ∅ := by
  rw [h.toMap_eq]
  by_cases hnone : links.get p = []
  · simp [hnone]
  · simp [hnone, List.toFinset_eq_empty_iff]

/-- Tight links that link the same files are one mapping. -/
theorem Tight.toMap_congr {l₁ l₂ : Links} (h₁ : l₁.Tight) (h₂ : l₂.Tight)
    (h : ∀ p q, q ∈ l₁.get p ↔ q ∈ l₂.get p) : l₁.toMap = l₂.toMap := by
  funext p
  have hset : (l₁.get p).toFinset = (l₂.get p).toFinset := by
    ext q
    simp [h p q]
  have hnone : l₁.get p = [] ↔ l₂.get p = [] := by
    rw [← List.toFinset_eq_empty_iff, hset, List.toFinset_eq_empty_iff]
  simp only [h₁.toMap_eq, h₂.toMap_eq, hnone, hset]

end Links

/-- What holds of no links and is kept by every connection holds of the links of an index. -/
theorem Index.links_induction {P : Links → Prop} (nil : P [])
    (connect : ∀ ls x, P ls → P (ls.connect x)) (i : Index) : P i.links := by
  have hpairs : ∀ (ps : List (String × String)) (ls : Links), P ls → P (ps.foldl Links.connect ls) := by
    intro ps
    induction ps with
    | nil => exact fun _ h => h
    | cons x ps ih => exact fun ls h => ih _ (connect ls x h)
  have hentries : ∀ (es : List Entry) (ls : Links), P ls →
      P (es.foldl (fun ls e => (pairs e.files).foldl Links.connect ls) ls) := by
    intro es
    induction es with
    | nil => exact fun _ h => h
    | cons e es ih => exact fun ls h => ih _ (hpairs _ ls h)
  exact hentries _ [] nil

theorem Index.links_tight (i : Index) : i.links.Tight :=
  i.links_induction .nil fun _ x h => h.connect x

/-! ## After a history of calls -/

namespace Index

theorem resolve_run (calls : List Call) :
    (run {} calls).resolve.1 = (Recorded.index (logged calls)).links := by
  rw [run_fresh]
  rfl

theorem duplicateGroups_run (calls : List Call) :
    (run {} calls).duplicateGroups = (Recorded.index (logged calls)).duplicateGroups := by
  rw [run_fresh]
  rfl

/-- Nothing that is called on a resolved index changes its links. -/
theorem resolve_again (i : Index) (more : List Call) : (i.resolve.2.run more).resolve.1 = i.resolve.1 := by
  have hsealed : i.resolve.2.isSealed = true := rfl
  rw [run_sealed hsealed]
  rfl

end Index

/-- **The links of an index are the files that share a digest.** After any history of calls the resolved
links are a mapping, in which a file is linked to another exactly when they differ and one digest was
recorded in both; no file is mapped to nothing; resolving again, after whatever calls, gives the same
links; and two histories that recorded the same pairs, in whatever order and batches, have the same
groups and the same mapping. -/
theorem resolved_links_exact (calls : List Index.Call) :
    ((Index.run {} calls).resolve.1.map (·.1)).Nodup ∧
    (∀ p q, (∃ others, (Index.run {} calls).resolve.1.toMap p = some others ∧ q ∈ others) ↔
      Recorded.Shared (Index.logged calls) p q) ∧
    (∀ p, (Index.run {} calls).resolve.1.toMap p ≠ some ∅) ∧
    (∀ more, ((Index.run {} calls).resolve.2.run more).resolve.1 = (Index.run {} calls).resolve.1) ∧
    (∀ calls', (Index.logged calls).Perm (Index.logged calls') →
      (Index.run {} calls).duplicateGroups = (Index.run {} calls').duplicateGroups ∧
      (Index.run {} calls).resolve.1.toMap = (Index.run {} calls').resolve.1.toMap) := by
  have htight : ∀ calls, (Index.run {} calls).resolve.1.Tight := fun _ => Index.links_tight _
  have hget : ∀ calls p q, q ∈ (Index.run {} calls).resolve.1.get p ↔ Recorded.Shared (Index.logged calls) p q := by
    intro calls p q
    rw [Index.resolve_run, Recorded.mem_links]
  refine ⟨(htight calls).distinct, fun p q => ?_, (htight calls).toMap_ne_empty, Index.resolve_again _,
    fun calls' hperm => ⟨?_, ?_⟩⟩
  · rw [(htight calls).mem_toMap, hget]
  · rw [Index.duplicateGroups_run, Index.duplicateGroups_run, Recorded.duplicateGroups_perm hperm]
  · refine (htight calls).toMap_congr (htight calls') fun p q => ?_
    rw [hget, hget, Recorded.Shared.perm hperm]

/-- Three files, the middle one of which shares a digest with each of the others, recorded in one batch
and in three. The links are not transitive. -/
theorem resolved_links_exact_chain :
    let a : String × Occurrence := ("d", ⟨"a", "f", 1⟩)
    let b : String × Occurrence := ("d", ⟨"b", "f", 1⟩)
    let b' : String × Occurrence := ("e", ⟨"b", "g", 2⟩)
    let c : String × Occurrence := ("e", ⟨"c", "g", 1⟩)
    (Index.run {} [.recordDigests [a, b, b', c]]).resolve.1.toMap =
        (Index.run {} [.recordDigests [c], .recordDigests [b', a], .recordDigests [b]]).resolve.1.toMap ∧
      (∃ others, (Index.run {} [.recordDigests [a, b, b', c]]).resolve.1.toMap "a" = some others ∧ "b" ∈ others) ∧
      ¬ ∃ others, (Index.run {} [.recordDigests [a, b, b', c]]).resolve.1.toMap "a" = some others ∧ "c" ∈ others := by
  intro a b b' c
  obtain ⟨-, hlinks, -, -, horder⟩ := resolved_links_exact [.recordDigests [a, b, b', c]]
  have hperm : (Index.logged [.recordDigests [a, b, b', c]]).Perm
      (Index.logged [.recordDigests [c], .recordDigests [b', a], .recordDigests [b]]) := by decide
  have hapart : ∀ x ∈ [a, b, b', c], ∀ y ∈ [a, b, b', c], x.1 = y.1 → x.2.path = "a" → y.2.path ≠ "c" := by decide
  refine ⟨(horder _ hperm).2, (hlinks "a" "b").2 ?_, fun h => ?_⟩
  · exact ⟨by decide, "d", ⟨"a", "f", 1⟩, ⟨"b", "f", 1⟩, by decide, by decide, rfl, rfl⟩
  · obtain ⟨-, d, x, y, hx, hy, hxa, hyc⟩ := (hlinks "a" "c").1 h
    exact hapart (d, x) hx (d, y) hy rfl hxa hyc

end Maintainability
