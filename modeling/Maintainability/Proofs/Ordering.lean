/-
Sorting by a key. Everything that a result lists is sorted by a key at the end, and what is sorted
by a key that tells its elements apart depends on nothing but which elements there are: not on the
order in which they came. `SortsBy` says that a comparison is the order of a key; the comparisons of
the library are all of this kind.
-/
import Mathlib.Data.List.Induction
import Mathlib.Data.List.Sort
import Mathlib.Data.Prod.Lex
import Mathlib.Data.String.Basic
import Maintainability.Analysis.Result

namespace Maintainability

/-- A comparison that is the order of a key. -/
def SortsBy {α β : Type} [LinearOrder β] (le : α → α → Bool) (key : α → β) : Prop :=
  ∀ a b, le a b = true ↔ key a ≤ key b

namespace SortsBy

variable {α β : Type} [LinearOrder β] {le : α → α → Bool} {key : α → β}

theorem pairwise (h : SortsBy le key) (l : List α) :
    (l.mergeSort le).Pairwise fun a b => key a ≤ key b := by
  have trans : ∀ a b c, le a b = true → le b c = true → le a c = true := fun a b c hab hbc =>
    (h a c).2 (((h a b).1 hab).trans ((h b c).1 hbc))
  have total : ∀ a b, (le a b || le b a) = true := by
    intro a b
    rcases le_total (key a) (key b) with hab | hba
    · simp [(h a b).2 hab]
    · simp [(h b a).2 hba]
  exact (List.pairwise_mergeSort trans total l).imp fun hab => (h _ _).1 hab

/-- With distinct keys the sorted list is strictly increasing. -/
theorem strict (h : SortsBy le key) {l : List α} (hn : (l.map key).Nodup) :
    (l.mergeSort le).Pairwise fun a b => key a < key b := by
  have hkeys : ((l.mergeSort le).map key).Nodup := ((List.mergeSort_perm l le).map key).nodup_iff.2 hn
  have hne : (l.mergeSort le).Pairwise fun a b => key a ≠ key b := List.pairwise_map.1 hkeys
  exact ((h.pairwise l).and hne).imp fun hab => lt_of_le_of_ne hab.1 hab.2

/-- The order of a list does not show after sorting it by a key that tells its elements apart. -/
theorem eq_of_perm (h : SortsBy le key) {l₁ l₂ : List α} (hp : l₁.Perm l₂)
    (hk : ∀ a ∈ l₁, ∀ b ∈ l₁, key a = key b → a = b) : l₁.mergeSort le = l₂.mergeSort le := by
  have antisymm : ∀ a b, a ∈ l₁.mergeSort le → b ∈ l₂.mergeSort le → key a ≤ key b → key b ≤ key a →
      a = b := by
    intro a b ha hb hab hba
    have hb₁ : b ∈ l₁ := hp.mem_iff.2 (List.mem_mergeSort.1 hb)
    exact hk a (List.mem_mergeSort.1 ha) b hb₁ (le_antisymm hab hba)
  have hsorted : (l₁.mergeSort le).Perm (l₂.mergeSort le) :=
    (List.mergeSort_perm l₁ le).trans (hp.trans (List.mergeSort_perm l₂ le).symm)
  exact hsorted.eq_of_pairwise antisymm (h.pairwise l₁) (h.pairwise l₂)

end SortsBy

/-- Two lists that a key strictly increases along are equal when they have the same elements. -/
theorem eq_of_strict {α β : Type} [LinearOrder β] {key : α → β} {l₁ l₂ : List α}
    (h₁ : l₁.Pairwise fun a b => key a < key b) (h₂ : l₂.Pairwise fun a b => key a < key b)
    (hm : ∀ a, a ∈ l₁ ↔ a ∈ l₂) : l₁ = l₂ := by
  have irrefl : Std.Irrefl fun a b : α => key a < key b := ⟨fun _ => lt_irrefl _⟩
  have antisymm : Std.Antisymm fun a b : α => key a < key b :=
    ⟨fun _ _ hab hba => absurd hba hab.asymm⟩
  exact h₁.eq_of_mem_iff h₂ hm

/-! ## The comparisons of the library -/

theorem sortsBy_string : SortsBy (fun a b : String => decide (a ≤ b)) id := fun _ _ => decide_eq_true_iff

theorem sortsBy_digest : SortsBy (fun a b : Entry => decide (a.digest ≤ b.digest)) Entry.digest :=
  fun _ _ => decide_eq_true_iff

theorem sortsBy_path :
    SortsBy (fun a b : FileMetrics => decide (a.path ≤ b.path)) FileMetrics.path :=
  fun _ _ => decide_eq_true_iff

theorem sortsBy_skipped : SortsBy (fun a b : Skipped => decide (a.path ≤ b.path)) Skipped.path :=
  fun _ _ => decide_eq_true_iff

/-- An occurrence as a triple, in the order of its parts. -/
def Occurrence.key (o : Occurrence) : String ×ₗ String ×ₗ Int := toLex (o.path, toLex (o.method, o.line))

theorem Occurrence.key_injective : Function.Injective Occurrence.key := by
  rintro ⟨p, m, l⟩ ⟨p', m', l'⟩ h
  have h₁ := congrArg ofLex h
  simp only [Occurrence.key, ofLex_toLex, Prod.mk.injEq] at h₁
  obtain ⟨rfl, h₂⟩ := h₁
  have h₃ := congrArg ofLex h₂
  simp only [ofLex_toLex, Prod.mk.injEq] at h₃
  obtain ⟨rfl, rfl⟩ := h₃
  rfl

theorem sortsBy_occurrence : SortsBy Occurrence.le Occurrence.key := by
  intro a b
  simp only [Occurrence.le, Occurrence.key, Prod.Lex.toLex_le_toLex]
  by_cases hp : a.path = b.path
  · by_cases hm : a.method = b.method
    · simp [hp, hm]
    · simp [hp, hm]
  · simp [hp]

/-! ## Distinct elements -/

section Distinct

variable {α : Type} [DecidableEq α]

/-- One more element at the end is kept when it is new. -/
theorem eraseDups_concat (l : List α) (a : α) :
    (l ++ [a]).eraseDups = if a ∈ l then l.eraseDups else l.eraseDups ++ [a] := by
  rw [List.eraseDups_append]
  by_cases ha : a ∈ l <;> simp [List.removeAll, List.eraseDups_cons, ha]

theorem nodup_eraseDups (l : List α) : l.eraseDups.Nodup := by
  induction l using List.reverseRecOn with
  | nil => simp
  | append_singleton l a ih =>
    rw [eraseDups_concat]
    split
    · exact ih
    · next ha =>
      rw [← List.concat_eq_append]
      exact ih.concat fun h => ha (List.mem_eraseDups.1 h)

/-- The distinct elements stand in the order of their first appearance. -/
theorem eraseDups_pairwise_idxOf (l : List α) : l.eraseDups.Pairwise fun a b => l.idxOf a < l.idxOf b := by
  induction l using List.reverseRecOn with
  | nil => simp
  | append_singleton l a ih =>
    have hold : ∀ {x}, x ∈ l.eraseDups → (l ++ [a]).idxOf x = l.idxOf x := fun hx =>
      List.idxOf_append_of_mem (List.mem_eraseDups.1 hx)
    have hkept : l.eraseDups.Pairwise fun x y => (l ++ [a]).idxOf x < (l ++ [a]).idxOf y := by
      refine ih.imp_of_mem fun hx hy hxy => ?_
      rw [hold hx, hold hy]
      exact hxy
    rw [eraseDups_concat]
    split
    · exact hkept
    · next ha =>
      refine List.pairwise_append.2 ⟨hkept, List.pairwise_singleton _ _, fun x hx y hy => ?_⟩
      rw [List.mem_singleton.1 hy, hold hx, List.idxOf_append_of_notMem ha]
      exact lt_of_lt_of_le (List.idxOf_lt_length_of_mem (List.mem_eraseDups.1 hx)) (Nat.le_add_right _ _)

end Distinct

end Maintainability
