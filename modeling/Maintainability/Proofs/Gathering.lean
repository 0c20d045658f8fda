/-
Gathering sources. Members of an archive and files of a directory are dealt with in the same way, one
after another, each by the number of sources taken and the bytes read before it: `gather` is that run,
and what it does is known from the verdicts alone. If every verdict is justified by what the item gives
on its own, a run that ends with sources took those of its items, up to the number that a configuration
allows (`gather_sources`); and it does end with sources if no item fails (`gather_ok`).
-/
import Maintainability.Intake
import Maintainability.Number.Total

namespace Maintainability.Intake

/-! ## The number of sources -/

/-- The number of sources that a configuration allows: the least one that is not below its limit.
There is none if the limit is infinite or not a number. -/
def capacity (c : Config) : Option Nat :=
  match (c.get .maxFiles).number? with
  | none => none
  | some (.int n) => some n.toNat
  | some (.real x) =>
    if x.isNaN then none
    else if !Binary64.isFinite x then if 0.0 < x then none else some 0
    else
      let (num, den) := Quantity.ratio x
      some (-(-num / den)).toNat

/-- The first elements, as many as there may be. -/
def upTo {α : Type} : Option Nat → List α → List α
  | none, xs => xs
  | some n, xs => xs.take n

theorem mem_upTo {α : Type} {n : Option Nat} {xs : List α} {x : α} (h : x ∈ upTo n xs) : x ∈ xs := by
  cases n with
  | none => exact h
  | some n => exact List.mem_of_mem_take h

theorem ratio_pos (x : Float) : 0 < (Quantity.ratio x).2 := by
  simp only [Quantity.ratio, Binary64.Parts.ratio]
  split
  · exact Nat.one_pos
  · exact Nat.pow_pos (by decide)

/-- A number of sources is full exactly when it is not below the number allowed. -/
theorem isFull_iff {c : Config} {taken : Nat} : isFull c taken = true ↔ ∃ n, capacity c = some n ∧ n ≤ taken := by
  simp only [isFull, capacity]
  cases (c.get .maxFiles).number? with
  | none => simp
  | some q =>
    cases q with
    | int n => simp [Quantity.atMost]
    | real x =>
      simp only [Quantity.atMost, Quantity.less]
      cases x.isNaN with
      | true => simp
      | false =>
        cases Binary64.isFinite x with
        | true =>
          have hpos : (0 : Int) < (Quantity.ratio x).2 := Int.natCast_pos.2 (ratio_pos x)
          have hceil : -(-(Quantity.ratio x).1 / ((Quantity.ratio x).2 : Int)) ≤ (taken : Int) ↔
              (Quantity.ratio x).1 ≤ (taken : Int) * ((Quantity.ratio x).2 : Int) := by
            rw [← Int.neg_le_neg_iff, Int.neg_neg, Int.le_ediv_iff_mul_le hpos, Int.neg_mul, Int.neg_le_neg_iff]
          simp [Int.toNat_le, hceil]
        | false => by_cases hpos : 0.0 < x <;> simp [hpos]

theorem length_lt_of_room {c : Config} {taken : Nat} (hroom : isFull c taken = false) :
    ∀ n, capacity c = some n → taken < n := by
  intro n hn
  refine Nat.lt_of_not_le fun hle => ?_
  have hfull : isFull c taken = true := isFull_iff.2 ⟨n, hn, hle⟩
  simp [hroom] at hfull

/-! ## Gathering -/

/-- What becomes of one item of a run: it is passed over, it ends the run with what was taken or with a
failure, or what it gives is taken. -/
inductive Verdict where
  | pass
  | stop
  | fail (why : Failure)
  | take (source : Option Source)

/-- Gathers sources from items in order, the last one first; each item is judged by the number of
sources taken and the bytes read before it. -/
def gather {α : Type} (verdict : Nat → Nat → α → Verdict) (size : α → Nat) :
    List Source → Nat → List α → Except Failure (List Source)
  | taken, _, [] => .ok taken.reverse
  | taken, total, a :: rest =>
    match verdict taken.length total a with
    | .pass => gather verdict size taken total rest
    | .stop => .ok taken.reverse
    | .fail why => .error why
    | .take source => gather verdict size (source.toList ++ taken) (total + size a) rest

/-- A verdict on an item after so many sources, by what the item gives on its own. -/
inductive Justified (c : Config) (taken : Nat) (given : Option Source) : Verdict → Prop
  | pass (h : given = none) : Justified c taken given .pass
  | stop (h : isFull c taken = true) : Justified c taken given .stop
  | fail (why : Failure) : Justified c taken given (.fail why)
  | take (h : isFull c taken = false) : Justified c taken given (.take given)

/-- A run that ends with sources took those of its items, up to the number allowed. -/
theorem gather_sources {α : Type} {c : Config} {verdict : Nat → Nat → α → Verdict} {give : α → Option Source}
    (hjustified : ∀ taken total a, Justified c taken (give a) (verdict taken total a)) {size : α → Nat}
    {sources : List Source} (items : List α) :
    ∀ {taken : List Source} {total : Nat}, (∀ n, capacity c = some n → taken.length ≤ n) →
      gather verdict size taken total items = .ok sources →
      sources = upTo (capacity c) (taken.reverse ++ items.filterMap give) := by
  induction items with
  | nil =>
    intro taken total hfits h
    cases h
    rw [List.filterMap_nil, List.append_nil]
    cases hcapacity : capacity c with
    | none => rfl
    | some n => exact (List.take_of_length_le (by simpa using hfits n hcapacity)).symm
  | cons a items ih =>
    intro taken total hfits h
    have ha := hjustified taken.length total a
    rw [gather] at h
    cases hverdict : verdict taken.length total a with
    | pass =>
      rw [hverdict] at h ha
      cases ha with
      | pass hnone =>
        rw [List.filterMap_cons_none hnone]
        exact ih hfits h
    | stop =>
      rw [hverdict] at h ha
      cases h
      cases ha with
      | stop hfull =>
        -- the run is full, so the sources that are still to come are too many
        obtain ⟨n, hn, hle⟩ := isFull_iff.1 hfull
        have hlength : taken.reverse.length = n := by
          rw [List.length_reverse]
          exact Nat.le_antisymm (hfits n hn) hle
        rw [hn, upTo, List.take_left' hlength]
    | fail why =>
      rw [hverdict] at h
      cases h
    | take source =>
      rw [hverdict] at h ha
      cases ha with
      | take hroom =>
        cases hgiven : give a with
        | none =>
          rw [List.filterMap_cons_none hgiven]
          rw [hgiven] at h
          exact ih hfits h
        | some s =>
          rw [hgiven] at h
          have hrest := @ih (s :: taken) _ (fun n hn => length_lt_of_room hroom n hn) h
          rw [hrest, List.filterMap_cons_some hgiven, List.reverse_cons, List.append_assoc]
          rfl

/-- A run that has room for the sizes of all items, none of which fails within it, ends with sources. -/
theorem gather_ok {α : Type} {verdict : Nat → Nat → α → Verdict} {size : α → Nat} {limit : Int} (items : List α) :
    ∀ {taken : List Source} {read : Nat}, ((read + total (items.map size) : Nat) : Int) ≤ limit →
      (∀ a ∈ items, ∀ taken read, ((read + size a : Nat) : Int) ≤ limit → ∀ why, verdict taken read a ≠ .fail why) →
      ∃ sources, gather verdict size taken read items = .ok sources := by
  induction items with
  | nil =>
    intro taken read _ _
    exact ⟨_, rfl⟩
  | cons a items ih =>
    intro taken read hfits h
    rw [List.map_cons, total_cons] at hfits
    obtain ⟨ha, hitems⟩ := List.forall_mem_cons.1 h
    rw [gather]
    split
    · exact ih (by omega) hitems
    · exact ⟨_, rfl⟩
    · next why hfail => exact absurd hfail (ha _ _ (by omega) why)
    · exact ih (by omega) hitems

end Maintainability.Intake
