/-
The deadline of a run that works on one file after the other. A result after the deadline is meant to
be impossible. But the clock is read before each file and not after the last one, so what is enforced
is less: a run returns exactly when no file was begun late (`analyze_ends`), which on a clock that never
runs backwards says that the last one was begun in time (`Course.Forward.begun_iff`); and then the files
before it were also done in time (`Course.Forward.done_in_time`). How long the last file takes makes no
difference.

Readings are doubles. `Binary64.rank?` gives every double but NaN a place in a linear order, from which
the laws of the comparisons follow.
-/
import Mathlib.Algebra.Order.Group.Int
import Mathlib.Data.Prod.Lex
import Maintainability.Proofs.Returned

namespace Maintainability

/-! ## The order of doubles -/

namespace Binary64

open Float.Model (UnpackedFloat)

theorem compare_neg (m n : ℤ) : compare (-m) (-n) = (compare m n).swap := by
  rcases lt_trichotomy m n with h | h | h
  · rw [compare_lt_iff_lt.2 h, compare_gt_iff_gt.2 (by omega)]
    rfl
  · simp [h]
  · rw [compare_gt_iff_gt.2 h, compare_lt_iff_lt.2 (by omega)]
    rfl

theorem compare_natCast (m n : ℕ) : compare (m : ℤ) n = compare m n := by
  rcases lt_trichotomy m n with h | h | h
  · rw [compare_lt_iff_lt.2 h, compare_lt_iff_lt.2 (by omega)]
  · simp [h]
  · rw [compare_gt_iff_gt.2 h, compare_gt_iff_gt.2 (by omega)]

/-- The place of a double among all doubles: by sign and kind first, then by exponent, then by
significand. A NaN has none. -/
def rank? : UnpackedFloat → Option (ℤ ×ₗ ℤ ×ₗ ℤ)
  | .notANumber => none
  | .infinity .negative => some (toLex (-2, toLex (0, 0)))
  | .finite .negative m e _ => some (toLex (-1, toLex (-e, -(m : ℤ))))
  | .zero _ => some (toLex (0, toLex (0, 0)))
  | .finite .positive m e _ => some (toLex (1, toLex (e, (m : ℤ))))
  | .infinity .positive => some (toLex (2, toLex (0, 0)))

theorem compare_eq (a b : UnpackedFloat) :
    a.compare b = (rank? a).bind fun x => (rank? b).map fun y => compare x y := by
  -- kinds and signs decide unless both doubles are finite with one sign, and then exponents do first
  rcases a with (_ | _) | _ | _ | ⟨(_ | _), m, e, hm⟩ <;>
    rcases b with (_ | _) | _ | _ | ⟨(_ | _), m', e', hm'⟩ <;>
    dsimp only [UnpackedFloat.compare, rank?] <;>
    simp [Prod.Lex.compare_def, compareLex, compareOn, compare_neg, compare_natCast, Ordering.swap_then] <;> rfl

theorem lt_iff {a b : Float} :
    a < b ↔ ∃ x y, rank? a.toModel.unpack = some x ∧ rank? b.toModel.unpack = some y ∧ x < y := by
  have hlt : (a < b) = (decide (a.toModel.unpack.lt b.toModel.unpack = true) = true) := rfl
  rw [hlt, decide_eq_true_iff, UnpackedFloat.lt, beq_iff_eq, compare_eq]
  cases rank? a.toModel.unpack <;> cases rank? b.toModel.unpack <;> simp [compare_lt_iff_lt]

theorem le_iff {a b : Float} :
    a ≤ b ↔ ∃ x y, rank? a.toModel.unpack = some x ∧ rank? b.toModel.unpack = some y ∧ x ≤ y := by
  have hle : (a ≤ b) = (decide (a.toModel.unpack.le b.toModel.unpack = true) = true) := rfl
  rw [hle, decide_eq_true_iff, UnpackedFloat.le, compare_eq]
  cases rank? a.toModel.unpack <;> cases rank? b.toModel.unpack <;>
    simp [Ordering.isLE_iff_ne_gt, compare_gt_iff_gt]

theorem lt_of_lt_of_le {a b c : Float} (hab : a < b) (hbc : b ≤ c) : a < c := by
  obtain ⟨x, y, hx, hy, hxy⟩ := lt_iff.1 hab
  obtain ⟨y', z, hy', hz, hyz⟩ := le_iff.1 hbc
  rw [hy, Option.some.injEq] at hy'
  subst hy'
  exact lt_iff.2 ⟨x, z, hx, hz, hxy.trans_le hyz⟩

end Binary64

/-! ## The clock of a run -/

/-- The time of a file: the reading of the clock before it, and the time at which it is done. -/
structure Span where
  begun : Float
  done : Float

/-- The times of a run that works on one file after the other. -/
structure Course where
  /-- At the start. -/
  start : Float
  /-- When the deadline is set. -/
  base : Float
  /-- Of each file. -/
  spans : List Span
  /-- At the end. -/
  finish : Float

namespace Course

/-- All times, in the order in which they come. -/
def times (c : Course) : List Float :=
  c.start :: c.base :: (c.spans.flatMap fun s => [s.begun, s.done]) ++ [c.finish]

/-- The times that are read off the clock. No file is done at one of them. -/
def timeline (c : Course) : Timeline := ⟨c.start, c.base, c.spans.map (·.begun), c.finish, [], 0⟩

/-- A course over so many files, on a clock that never runs backwards. -/
structure Forward (c : Course) (files : Nat) : Prop where
  each : c.spans.length = files
  times : c.times.Pairwise (· ≤ ·)

theorem Forward.spans {c : Course} {n : Nat} (h : c.Forward n) :
    c.spans.Pairwise fun s t => s.begun ≤ t.begun ∧ s.done ≤ t.begun := by
  have hspans : (c.spans.flatMap fun s => [s.begun, s.done]).Pairwise (· ≤ ·) :=
    (List.pairwise_append.1 (List.pairwise_cons.1 (List.pairwise_cons.1 h.times).2).2).1
  refine (List.pairwise_flatMap.1 hspans).2.imp fun {s t} hst => ?_
  exact ⟨hst s.begun (by simp) t.begun (by simp), hst s.done (by simp) t.begun (by simp)⟩

/-- The last file is begun when all others are done. -/
theorem Forward.le_last {c : Course} {n : Nat} (h : c.Forward n) {last : Span} (hlast : last ∈ c.spans.getLast?) :
    ∀ s ∈ c.spans.dropLast, s.begun ≤ last.begun ∧ s.done ≤ last.begun := by
  have hspans := h.spans
  rw [← List.dropLast_append_getLast? last hlast] at hspans
  exact fun s hs => (List.pairwise_append.1 hspans).2.2 s hs last (by simp)

/-- No file is begun late if the last one is not. -/
theorem Forward.begun_iff {c : Course} {n : Nat} (h : c.Forward n) {deadline : Float} :
    (∀ s ∈ c.spans, ¬ deadline < s.begun) ↔ ∀ s ∈ c.spans.getLast?, ¬ deadline < s.begun := by
  constructor
  · exact fun hall s hs => hall s (List.mem_of_getLast? hs)
  · intro hlast s hs hlate
    match hspan : c.spans.getLast? with
    | none =>
      rw [List.getLast?_eq_none_iff.1 hspan] at hs
      cases hs
    | some last =>
      have hintime : ¬ deadline < last.begun := hlast last hspan
      rw [← List.dropLast_append_getLast? last hspan] at hs
      rcases List.mem_append.1 hs with hs | hs
      -- a late file before the last one would make the last one late
      · exact hintime (Binary64.lt_of_lt_of_le hlate (h.le_last hspan s hs).1)
      · rw [List.mem_singleton.1 hs] at hlate
        exact hintime hlate

/-- When the last file is begun in time, the files before it are done in time. -/
theorem Forward.done_in_time {c : Course} {n : Nat} (h : c.Forward n) {deadline : Float}
    (hlast : ∀ s ∈ c.spans.getLast?, ¬ deadline < s.begun) : ∀ s ∈ c.spans.dropLast, ¬ deadline < s.done := by
  intro s hs hlate
  match hspan : c.spans.getLast? with
  | none =>
    rw [List.getLast?_eq_none_iff.1 hspan] at hs
    cases hs
  | some last => exact hlast last hspan (Binary64.lt_of_lt_of_le hlate (h.le_last hspan s hs).2)

end Course

namespace Run

/-- No file is left exactly when no reading is late. -/
theorem untilLate_left {deadline : Float} : ∀ {readings : List Float} {files : List Source},
    readings.length = files.length →
      ((untilLate deadline readings files).2 = 0 ↔ ∀ t ∈ readings, ¬ deadline < t)
  | [], [], _ => by simp [untilLate]
  | t :: ts, s :: rest, h => by
    rw [untilLate]
    by_cases hlate : deadline < t
    · rw [if_pos hlate]
      simp [hlate]
    · rw [if_neg hlate, List.forall_mem_cons]
      have ih : (untilLate deadline ts rest).2 = 0 ↔ ∀ t ∈ ts, ¬ deadline < t := untilLate_left (by simpa using h)
      exact ih.trans (iff_and_self.2 fun _ => hlate)

section

variable {o : Options} {t : Timeline} {files : List Source} {deadline : Float}

theorem sequential_in_time (hd : o.deadline? t.base = .ok (some deadline))
    (h : (untilLate deadline t.before files).2 = 0) (parser : SourceParser) :
    ∃ outcomes, (sequential o parser t files {}).1 = .ok outcomes := by
  simp only [sequential, hd, h, if_true]
  exact ⟨_, rfl⟩

theorem sequential_late (hd : o.deadline? t.base = .ok (some deadline))
    (h : (untilLate deadline t.before files).2 ≠ 0) (parser : SourceParser) :
    (sequential o parser t files {}).1 =
      .error (.error (.timeout o.timeout (untilLate deadline t.before files).2)) := by
  simp only [sequential, hd, h, if_false]

end

end Run

/-- A run whose work is given up has no result. -/
theorem analyze_of_work_error {o : Options} {parser : SourceParser} {t : Timeline} {sources : List Source}
    {e : Failure} (h : (Run.work o parser t (Source.unique sources).1).1 = .error e) :
    (analyze o parser t sources).1 = .error e := by
  match hwork : Run.work o parser t (Source.unique sources).1 with
  | (.error e', _, notes) =>
    rw [hwork] at h
    cases h
    simp only [analyze, hwork]
  | (.ok outcomes, _, notes) =>
    rw [hwork] at h
    cases h

/-! ## What is enforced -/

/-- The timeout is so many seconds, as a double. -/
def Options.Lasts (o : Options) (seconds : Float) : Prop :=
  ∃ q, o.timeout.number? = some q ∧ q.toFloat? = .ok seconds

theorem Options.Lasts.deadline {o : Options} {seconds : Float} (h : o.Lasts seconds) (base : Float) :
    o.deadline? base = .ok (some (base + seconds)) := by
  obtain ⟨q, hq, hseconds⟩ := h
  unfold Options.deadline?
  split
  · next hnull => simp [hnull, Value.number?] at hq
  · rw [hq]
    simp only [hseconds]
    rfl

/-- A run over so many files, one after the other, that is to end within so many seconds. -/
structure Options.Within (o : Options) (files : Nat) (seconds : Float) : Prop where
  inOrder : o.isSequential files = .ok true
  timeout : ∃ q, o.timeout.number? = some q ∧ q.toFloat? = .ok seconds

theorem Options.Within.deadline {o : Options} {files : Nat} {seconds : Float} (h : o.Within files seconds)
    (base : Float) : o.deadline? base = .ok (some (base + seconds)) :=
  Options.Lasts.deadline h.timeout base

section

variable {o : Options} {sources : List Source} {seconds : Float} {c : Course}

/-- A run with a deadline returns if no file was begun late, and is given up if one was. -/
theorem analyze_ends (ho : o.Within (Source.unique sources).1.length seconds)
    (hc : c.Forward (Source.unique sources).1.length) (parser : SourceParser) :
    (∀ s ∈ c.spans, ¬ c.base + seconds < s.begun) ∧ (∃ r, (analyze o parser c.timeline sources).1 = .ok r) ∨
    (∃ s ∈ c.spans, c.base + seconds < s.begun) ∧
      ∃ n : Nat, 0 < n ∧ (analyze o parser c.timeline sources).1 = .error (.error (.timeout o.timeout n)) := by
  have hleft : (Run.untilLate (c.base + seconds) c.timeline.before (Source.unique sources).1).2 = 0 ↔
      ∀ s ∈ c.spans, ¬ c.base + seconds < s.begun := by
    rw [Run.untilLate_left (by simp [Course.timeline, hc.each])]
    exact List.forall_mem_map
  have hwork : Run.work o parser c.timeline (Source.unique sources).1 =
      Run.sequential o parser c.timeline (Source.unique sources).1 {} := by
    simp only [Run.work, ho.inOrder]
  have hdeadline : o.deadline? c.timeline.base = .ok (some (c.base + seconds)) := ho.deadline c.base
  by_cases hlate : ∃ s ∈ c.spans, c.base + seconds < s.begun
  · have hne : (Run.untilLate (c.base + seconds) c.timeline.before (Source.unique sources).1).2 ≠ 0 := by
      intro hzero
      obtain ⟨s, hs, hlate⟩ := hlate
      exact hleft.1 hzero s hs hlate
    refine .inr ⟨hlate, _, Nat.pos_of_ne_zero hne, analyze_of_work_error ?_⟩
    rw [hwork]
    exact Run.sequential_late hdeadline hne parser
  · have hintime : ∀ s ∈ c.spans, ¬ c.base + seconds < s.begun := fun s hs h => hlate ⟨s, hs, h⟩
    obtain ⟨outcomes, hok⟩ := Run.sequential_in_time hdeadline (hleft.2 hintime) parser
    obtain ⟨houtcomes, hindex⟩ := Run.sequential_ok hok
    obtain ⟨r, hr, -⟩ := Run.conclude_ok parser (Source.nodup_unique sources)
    rw [← hwork, houtcomes] at hok
    rw [← hwork] at hindex
    exact .inl ⟨hintime, r, analyze_of_work hok hindex hr⟩

/-- **A run returns exactly when its last file was begun in time.** Whatever the sources, the parser and
the seconds, on a clock that never runs backwards: there is a result exactly when the reading before the
last file is not after the deadline. It is then the result that the sources have, and all files but the
last one were done in time. Otherwise the run is given up as late, with files that it has not begun. -/
theorem returned_iff_last_begun (ho : o.Within (Source.unique sources).1.length seconds)
    (hc : c.Forward (Source.unique sources).1.length) (parser : SourceParser) :
    ((∃ r, (analyze o parser c.timeline sources).1 = .ok r) ↔
      ∀ s ∈ c.spans.getLast?, ¬ c.base + seconds < s.begun) ∧
    (∀ r, (analyze o parser c.timeline sources).1 = .ok r →
      HasResult parser sources r ∧ ∀ s ∈ c.spans.dropLast, ¬ c.base + seconds < s.done) ∧
    ((∃ s ∈ c.spans.getLast?, c.base + seconds < s.begun) ↔
      ∃ n : Nat, 0 < n ∧ (analyze o parser c.timeline sources).1 = .error (.error (.timeout o.timeout n))) := by
  have hbegun : (∀ s ∈ c.spans, ¬ c.base + seconds < s.begun) ↔
      ∀ s ∈ c.spans.getLast?, ¬ c.base + seconds < s.begun := hc.begun_iff
  rcases analyze_ends ho hc parser with ⟨hintime, r, hr⟩ | ⟨⟨s, hs, hlate⟩, n, hn, herror⟩
  · have hlast := hbegun.1 hintime
    refine ⟨⟨fun _ => hlast, fun _ => ⟨r, hr⟩⟩, fun x hx => ?_, ?_⟩
    · exact ⟨.of_conclude (conclude_of_analyze hx), hc.done_in_time hlast⟩
    · constructor
      · rintro ⟨s, hs, hlate⟩
        exact absurd hlate (hlast s hs)
      · rintro ⟨n, -, herror⟩
        rw [hr] at herror
        cases herror
  · have hlast : ∃ s ∈ c.spans.getLast?, c.base + seconds < s.begun := by
      by_contra hnone
      exact hbegun.2 (fun t ht h => hnone ⟨t, ht, h⟩) s hs hlate
    refine ⟨⟨?_, fun hall => ?_⟩, fun x hx => ?_, fun _ => ⟨n, hn, herror⟩, fun _ => hlast⟩
    · rintro ⟨r, hr⟩
      rw [herror] at hr
      cases hr
    · obtain ⟨t, ht, h⟩ := hlast
      exact absurd h (hall t ht)
    · rw [herror] at hx
      cases hx

end

/-- A run over two files that is to end within one second, on a clock that shows 2 when the first file
is done. -/
theorem returned_iff_last_begun_two :
    let c : Course := ⟨0.0, 0.0, [⟨0.5, 2.0⟩, ⟨2.0, 2.0⟩], 2.0⟩
    ∃ n : Nat, 0 < n ∧ (analyze { timeout := .int 1 } (fun _ => .methods [] []) c.timeline
      [⟨"a", []⟩, ⟨"b", []⟩]).1 = .error (.error (.timeout (.int 1) n)) := by
  intro c
  have hfiles : (Source.unique [⟨"a", []⟩, ⟨"b", []⟩]).1.length = 2 := by decide
  have ho : Options.Within { timeout := .int 1 } (Source.unique [⟨"a", []⟩, ⟨"b", []⟩]).1.length 1.0 := by
    rw [hfiles]
    exact ⟨rfl, .int 1, rfl, rfl⟩
  have hc : c.Forward (Source.unique [⟨"a", []⟩, ⟨"b", []⟩]).1.length := by
    rw [hfiles]
    exact ⟨rfl, by decide⟩
  obtain ⟨-, -, hlate⟩ := returned_iff_last_begun ho hc fun _ => .methods [] []
  exact hlate.1 ⟨_, rfl, by decide⟩

/-- A file that takes two seconds is worked on to its end, and there is a result one second after the
deadline. -/
theorem result_after_deadline :
    let c : Course := ⟨0.0, 0.0, [⟨0.0, 2.0⟩], 2.0⟩
    Options.Within { timeout := .int 1 } (Source.unique [⟨"a", []⟩]).1.length 1.0 ∧
      c.Forward (Source.unique [⟨"a", []⟩]).1.length ∧
      (∃ r, (analyze { timeout := .int 1 } (fun _ => .methods [] []) c.timeline [⟨"a", []⟩]).1 = .ok r) ∧
      ∃ s ∈ c.spans.getLast?, c.base + 1.0 < s.done := by
  intro c
  have hfiles : (Source.unique [⟨"a", []⟩]).1.length = 1 := by decide
  have ho : Options.Within { timeout := .int 1 } (Source.unique [⟨"a", []⟩]).1.length 1.0 := by
    rw [hfiles]
    exact ⟨rfl, .int 1, rfl, rfl⟩
  have hc : c.Forward (Source.unique [⟨"a", []⟩]).1.length := by
    rw [hfiles]
    exact ⟨rfl, by decide⟩
  refine ⟨ho, hc, ?_, _, rfl, by decide⟩
  rcases analyze_ends ho hc fun _ => .methods [] [] with ⟨-, hr⟩ | ⟨⟨s, hs, hlate⟩, -⟩
  · exact hr
  · rw [List.mem_singleton.1 hs] at hlate
    exact absurd hlate (by decide)

end Maintainability
