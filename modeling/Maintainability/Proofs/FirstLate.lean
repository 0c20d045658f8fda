/-
Where a run that works on one file after the other stops. The clock is read before each file; the first
reading that is after the deadline ends the run, and until then a deadline makes no difference. So the
run either is the one without a deadline, or it has worked on exactly the files in front of the first
late reading, sealed the index behind them and given up the others (`sequential_late_at`,
`first_late_exact`).

`untilLate_cases` says all that the readings decide, by induction along the files: no file has a late
reading before it, or one is the first that has.
-/
import Maintainability.Proofs.Atomicity
import Maintainability.Proofs.Deadline

namespace Maintainability

namespace Run

/-! ## Late readings -/

/-- The reading before the file at a position is after the deadline. -/
def LateAt (deadline : Float) (readings : List Float) (k : Nat) : Prop := ∃ t ∈ readings[k]?, deadline < t

/-- The position of the first of so many files that has a late reading before it. -/
structure FirstLate (deadline : Float) (readings : List Float) (files k : Nat) : Prop where
  within : k < files
  late : LateAt deadline readings k
  earlier : ∀ j < k, ¬ LateAt deadline readings j

variable {deadline : Float} {readings : List Float} {files : List Source}

theorem lateAt_nil (k : Nat) : ¬ LateAt deadline [] k := by
  simp [LateAt]

theorem lateAt_zero (t : Float) : LateAt deadline (t :: readings) 0 ↔ deadline < t := by
  simp [LateAt]

theorem lateAt_succ (t : Float) (k : Nat) : LateAt deadline (t :: readings) (k + 1) ↔ LateAt deadline readings k := by
  simp [LateAt]

theorem FirstLate.unique {n j k : Nat} (hj : FirstLate deadline readings n j) (hk : FirstLate deadline readings n k) :
    j = k := by
  rcases Nat.lt_trichotomy j k with h | h | h
  · exact absurd hj.late (hk.earlier j h)
  · exact h
  · exact absurd hk.late (hj.earlier k h)

theorem FirstLate.succ {n k : Nat} {t : Float} (ht : ¬ deadline < t) (h : FirstLate deadline readings n k) :
    FirstLate deadline (t :: readings) (n + 1) (k + 1) := by
  refine ⟨by have := h.within; omega, (lateAt_succ t k).2 h.late, ?_⟩
  intro j hj
  cases j with
  | zero => simpa [lateAt_zero] using ht
  | succ j => simpa [lateAt_succ] using h.earlier j (by omega)

/-- All files are worked on, or those in front of the first with a late reading. -/
theorem untilLate_cases (deadline : Float) (readings : List Float) (files : List Source) :
    (∀ k < files.length, ¬ LateAt deadline readings k) ∧ untilLate deadline readings files = (files, 0) ∨
    ∃ k, FirstLate deadline readings files.length k ∧
      untilLate deadline readings files = (files.take k, files.length - k) := by
  fun_induction untilLate deadline readings files with
  | case1 readings => simp
  | case2 s rest => simp [lateAt_nil]
  | case3 t ts s rest hlate =>
    exact .inr ⟨0, ⟨by simp, (lateAt_zero t).2 hlate, by simp⟩, by simp⟩
  | case4 t ts s rest hlate done left heq ih =>
    rcases ih with ⟨hnone, hall⟩ | ⟨k, hfirst, hcut⟩
    · left
      rw [heq] at hall
      refine ⟨?_, ?_⟩
      · intro k hk
        cases k with
        | zero => simpa [lateAt_zero] using hlate
        | succ k => simpa [lateAt_succ] using hnone k (by simpa using hk)
      · simpa using hall
    · right
      rw [heq] at hcut
      refine ⟨k + 1, hfirst.succ hlate, ?_⟩
      simpa using hcut

/-! ## Files worked on -/

/-- Files are worked on one after the other, each on the index that the one before it has left. -/
inductive Works (parser : SourceParser) : Index → List Source → Outcomes → Index → List Log.Record → Prop
  | done (i : Index) : Works parser i [] [] i []
  | next {s : Source} {rest : List Source} {i last : Index} {ended : Except Fault Outcome} {left : Index}
      {notes more : List Log.Record} {outcomes : Outcomes} (here : Measure.file parser s i = (ended, left, notes))
      (behind : Works parser left rest outcomes last more) :
      Works parser i (s :: rest) ((s.path, (settle s.path ended).1) :: outcomes) last
        (notes ++ (settle s.path ended).2 ++ more)

theorem works_inOrder (parser : SourceParser) (files : List Source) (i : Index) :
    Works parser i files (inOrder parser i files).1 (inOrder parser i files).2.1 (inOrder parser i files).2.2 := by
  induction files generalizing i with
  | nil => exact .done i
  | cons s rest ih => exact .next rfl (ih _)

/-! ## With and without a deadline -/

section

variable {o : Options} {t : Timeline} (parser : SourceParser) (i : Index)

theorem sequential_untimed (h : o.deadline? t.base = .ok none) :
    sequential o parser t files i =
      (.ok (inOrder parser i files).1, (inOrder parser i files).2.1, (inOrder parser i files).2.2) := by
  simp only [sequential, h]

/-- A deadline after which no file is begun makes no difference. -/
theorem sequential_never_late (hd : o.deadline? t.base = .ok (some deadline))
    (h : untilLate deadline t.before files = (files, 0)) :
    sequential o parser t files i =
      (.ok (inOrder parser i files).1, (inOrder parser i files).2.1, (inOrder parser i files).2.2) := by
  simp only [sequential, hd, h, if_true]

/-- A late reading gives up the files behind it and seals the index. -/
theorem sequential_late_at {k : Nat} (hd : o.deadline? t.base = .ok (some deadline)) (hk : k < files.length)
    (h : untilLate deadline t.before files = (files.take k, files.length - k)) :
    sequential o parser t files i =
      (.error (.error (.timeout o.timeout (files.length - k : Nat))), (inOrder parser i (files.take k)).2.1.close,
        (inOrder parser i (files.take k)).2.2) := by
  have hleft : files.length - k ≠ 0 := by omega
  simp only [sequential, hd, h, hleft, if_false]

end

end Run

/-- **A run stops at exactly the first late reading.** Whatever the files, the parser, the index and the
readings of the clock, with a timeout of some seconds: the run is given up as late exactly when a reading
before one of its files is after the deadline. The first such file is then the first of those that are
left, which are told in the error and are one at least; exactly the files in front of it were worked on,
in order, and the index holds their batches behind what it held before, and is sealed. If there is no such
file, the run returns, and it is in all that it leaves the run without a timeout. -/
theorem first_late_exact {o : Options} {seconds : Float} (ho : o.Lasts seconds) (parser : SourceParser)
    (t : Timeline) (files : List Source) (i : Index) :
    ((∃ pending, (Run.sequential o parser t files i).1 = .error (.error (.timeout o.timeout pending))) ↔
      ∃ k < files.length, Run.LateAt (t.base + seconds) t.before k) ∧
    (∀ k, Run.FirstLate (t.base + seconds) t.before files.length k →
      (Run.sequential o parser t files i).1 = .error (.error (.timeout o.timeout (files.length - k : Nat))) ∧
      1 ≤ files.length - k ∧
      ∃ outcomes last, Run.Works parser i (files.take k) outcomes last (Run.sequential o parser t files i).2.2 ∧
        (Run.sequential o parser t files i).2.1 = last.close ∧
        ∀ r, i = Recorded.index r → last = Recorded.index (r ++ Run.recorded parser (files.take k))) ∧
    ((∀ k < files.length, ¬ Run.LateAt (t.base + seconds) t.before k) →
      (∃ outcomes, (Run.sequential o parser t files i).1 = .ok outcomes) ∧
      Run.sequential o parser t files i = Run.sequential { o with timeout := .null } parser t files i) := by
  have hd := ho.deadline t.base
  rcases Run.untilLate_cases (t.base + seconds) t.before files with ⟨hnone, hall⟩ | ⟨k, hfirst, hcut⟩
  · have hrun := Run.sequential_never_late parser i hd hall
    refine ⟨⟨?_, ?_⟩, ?_, ?_⟩
    · intro h
      obtain ⟨pending, hpending⟩ := h
      rw [hrun] at hpending
      cases hpending
    · intro h
      obtain ⟨k, hk, hlate⟩ := h
      exact absurd hlate (hnone k hk)
    · intro k hfirst
      exact absurd hfirst.late (hnone k hfirst.within)
    · intro _
      refine ⟨⟨_, congrArg Prod.fst hrun⟩, ?_⟩
      rw [hrun, Run.sequential_untimed parser i rfl]
  · have hrun := Run.sequential_late_at parser i hd hfirst.within hcut
    refine ⟨⟨fun _ => ⟨k, hfirst.within, hfirst.late⟩, fun _ => ⟨_, congrArg Prod.fst hrun⟩⟩, ?_, ?_⟩
    · intro j hj
      obtain rfl := hj.unique hfirst
      have hleft := hfirst.within
      rw [hrun]
      refine ⟨rfl, by omega, _, _, Run.works_inOrder parser (files.take j) i, rfl, ?_⟩
      intro r hr
      rw [hr]
      exact (Run.inOrder_index parser (files.take j) r).2
    · intro hnone
      exact absurd hfirst.late (hnone k hfirst.within)

/-- Three files, the second of which the parser fails on, and a clock that is late before the third: the
index holds the method of the first. -/
theorem first_late_exact_third :
    let tree : Tree := .node .other 0 "" []
    let parser : SourceParser := fun s =>
      if s.path = "b" then .crashed "boom" else .methods [⟨"f", [], some tree, 1, 1⟩] []
    let t : Timeline := { base := 0.5, before := [0.5, 1.0, 2.0] }
    let run := Run.sequential { timeout := .int 1 } parser t [⟨"a", []⟩, ⟨"b", []⟩, ⟨"c", []⟩] {}
    Run.FirstLate 1.5 t.before 3 2 ∧ run.1 = .error (.error (.timeout (.int 1) 1)) ∧
      ∃ d, run.2.1 = (Recorded.index [(d, ⟨"a", "f", 1⟩)]).close := by
  intro tree parser t run
  have ho : Options.Lasts { timeout := .int 1 } 1.0 := ⟨.int 1, rfl, rfl⟩
  have hdeadline : t.base + 1.0 = 1.5 := by decide +kernel
  have hfirst : Run.FirstLate 1.5 t.before 3 2 := by
    refine ⟨by decide, ?_, ?_⟩
    · rw [Run.lateAt_succ, Run.lateAt_succ, Run.lateAt_zero]
      decide +kernel
    · intro j hj
      match j with
      | 0 =>
        rw [Run.lateAt_zero]
        decide +kernel
      | 1 =>
        rw [Run.lateAt_succ, Run.lateAt_zero]
        decide +kernel
  obtain ⟨-, hlate, -⟩ := first_late_exact ho parser t [⟨"a", []⟩, ⟨"b", []⟩, ⟨"c", []⟩] {}
  rw [hdeadline] at hlate
  obtain ⟨herror, -, outcomes, last, -, hindex, hlast⟩ := hlate 2 hfirst
  -- the first file can be measured, so its batch is the digest of its method
  have hnoted : Measure.Noted ⟨"f", [], some tree, 1, 1⟩ tree := ⟨rfl, by decide, by decide, by decide +kernel⟩
  obtain ⟨m, batch, hready⟩ : ∃ m batch, (Measure.prepare parser ⟨"a", []⟩).1 = .ready m batch :=
    Measure.exists_ready_iff.2 ⟨_, _, [tree], rfl, .cons hnoted .nil, by decide +kernel⟩
  obtain ⟨-, -, ms, said, hparser, hbatch⟩ := Measure.prepare_ready hready
  cases hparser
  obtain ⟨d, hd⟩ : ∃ d, bodyDigest [] = .ok d := bodyDigest_ok.2 (by simp [Text.Encodable])
  have hrecorded : Run.recorded parser [⟨"a", []⟩, ⟨"b", []⟩] = [(d, ⟨"a", "f", 1⟩)] := by
    have ha : Measure.recorded parser ⟨"a", []⟩ = [(d, ⟨"a", "f", 1⟩)] := by
      rw [Measure.recorded, hready, Measure.Prepared.batch, hbatch]
      simp [Measure.digests, Method.digest?, hd, Except.toOption, Measure.occurrence]
    have hb : Measure.recorded parser ⟨"b", []⟩ = [] := rfl
    simp [Run.recorded, ha, hb]
  refine ⟨hfirst, herror, d, ?_⟩
  rw [hindex, hlast [] rfl, List.nil_append, ← hrecorded]
  rfl

end Maintainability
