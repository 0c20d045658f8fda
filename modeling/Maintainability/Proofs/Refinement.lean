/-
The index as a log that can be frozen. A client of an index makes calls on it, any number of them in
any order (`Call`, `run`); what such a history has put into the index is its log: the pairs recorded
before the first call that seals (`logged`). At every point the entries are the log grouped by digest,
and the answers of the calls are those that the log gives (`index_refines_log`).

One call on an open index appends to the log or freezes it (`call_index`), one call on a sealed index
does nothing (`call_sealed`); a history is the induction over its calls (`run_index`).
-/
import Mathlib.Data.Finset.Card
import Maintainability.Proofs.Recorded

namespace Maintainability

namespace Index

/-- A call on an index. -/
inductive Call where
  /-- Records a method under the digest of its text. -/
  | record (source : Text) (o : Occurrence)
  /-- Records a batch. -/
  | recordDigests (batch : Recorded)
  /-- Asks for the digest of a method's text. -/
  | digest (source : Text) (o : Occurrence)
  /-- Seals the index. -/
  | close
  /-- Asks for the entries. -/
  | entries
  /-- Asks for the groups. -/
  | duplicateGroups
  /-- Seals the index and asks for its links. -/
  | resolve
  /-- Asks for the number of digests. -/
  | size

/-- What a call answers. -/
inductive Answer where
  /-- The digest under which a method was recorded, if it was. -/
  | recorded (digest : Option String)
  /-- Whether a batch was accepted. -/
  | accepted (done : Bool)
  /-- The digest of a text, or the error of one that has none. -/
  | digested (digest : Except Error String)
  /-- Nothing but that the call is done. -/
  | closed
  /-- Entries or groups. -/
  | entries (es : List Entry)
  /-- The links between files. -/
  | links (ls : Links)
  /-- A number of digests. -/
  | size (n : Nat)

/-- What a call answers, and the index after it. -/
def call (i : Index) : Call → Answer × Index
  | .record source o => (.recorded (i.record source o).1, (i.record source o).2.1)
  | .recordDigests batch => (.accepted (i.recordDigests batch).1, (i.recordDigests batch).2)
  | .digest source o => (.digested ((bodyDigest source).mapError o.hashing), i)
  | .close => (.closed, i.close)
  | .entries => (.entries i.entries, i)
  | .duplicateGroups => (.entries i.duplicateGroups, i)
  | .resolve => (.links i.resolve.1, i.resolve.2)
  | .size => (.size i.size, i)

/-- The index after a history of calls. -/
def run (i : Index) (calls : List Call) : Index := calls.foldl (fun i c => (i.call c).2) i

/-! ## The log -/

namespace Call

/-- Seals the index. -/
def seals : Call → Bool
  | .close | .resolve => true
  | .record _ _ | .recordDigests _ | .digest _ _ | .entries | .duplicateGroups | .size => false

/-- Only looks at the index. -/
def reads : Call → Bool
  | .digest _ _ | .entries | .duplicateGroups | .size => true
  | .record _ _ | .recordDigests _ | .close | .resolve => false

/-- What the call puts into an index that is open. A text without a digest puts in nothing. -/
def adds : Call → Recorded
  | .record source o =>
    match bodyDigest source with
    | .ok d => [(d, o)]
    | .error _ => []
  | .recordDigests batch => batch
  | .digest _ _ | .close | .entries | .duplicateGroups | .resolve | .size => []

end Call

/-- The log of a history: all that was recorded before the first call that seals. -/
def logged (calls : List Call) : Recorded := (calls.takeWhile fun c => !c.seals).flatMap Call.adds

@[simp] theorem logged_nil : logged [] = [] := rfl

theorem logged_cons (c : Call) (calls : List Call) :
    logged (c :: calls) = if c.seals then [] else c.adds ++ logged calls := by
  cases h : c.seals <;> simp [logged, h]

/-! ## One call -/

theorem record_index (r : Recorded) (source : Text) (o : Occurrence) :
    (Recorded.index r).record source o =
      match bodyDigest source with
      | .ok d => (some d, Recorded.index (r ++ [(d, o)]), [])
      | .error e => (none, Recorded.index r, [o.unhashed e]) := by
  rw [record]
  cases bodyDigest source with
  | ok d => simp [Recorded.recordDigests_index]
  | error e => rfl

theorem record_sealed {i : Index} (h : i.isSealed = true) (source : Text) (o : Occurrence) :
    (i.record source o).1 = none ∧ (i.record source o).2.1 = i := by
  rw [record]
  cases bodyDigest source with
  | ok d => simp [recordDigests_sealed h]
  | error e => exact ⟨rfl, rfl⟩

/-- A call on an open index freezes the log or appends to it. -/
theorem call_index (r : Recorded) (c : Call) :
    ((Recorded.index r).call c).2 =
      if c.seals then (Recorded.index r).close else Recorded.index (r ++ c.adds) := by
  cases c with
  | record source o =>
    simp only [call, Call.seals, Call.adds, record_index, Bool.false_eq_true, if_false]
    cases bodyDigest source with
    | ok d => rfl
    | error e => simp
  | recordDigests batch => simp [call, Call.seals, Call.adds, Recorded.recordDigests_index]
  | digest | entries | duplicateGroups | size => simp [call, Call.seals, Call.adds]
  | close | resolve => rfl

/-- A call on a sealed index leaves it as it is. -/
theorem call_sealed {i : Index} (h : i.isSealed = true) (c : Call) : (i.call c).2 = i := by
  cases c with
  | record source o => exact (record_sealed h source o).2
  | recordDigests batch => simp [call, recordDigests_sealed h]
  | digest | entries | duplicateGroups | size => rfl
  | close | resolve => exact close_sealed h

theorem call_reads (i : Index) {c : Call} (h : c.reads = true) : (i.call c).2 = i := by
  cases c with
  | digest | entries | duplicateGroups | size => rfl
  | record | recordDigests | close | resolve => cases h

/-! ## A history of calls -/

theorem run_cons (i : Index) (c : Call) (calls : List Call) : i.run (c :: calls) = (i.call c).2.run calls := rfl

theorem run_append (i : Index) (calls more : List Call) : i.run (calls ++ more) = (i.run calls).run more :=
  List.foldl_append

theorem run_sealed {i : Index} (h : i.isSealed = true) (calls : List Call) : i.run calls = i := by
  induction calls with
  | nil => rfl
  | cons c calls ih => rw [run_cons, call_sealed h, ih]

/-- **A history appends its log** to an open index, and the index is sealed when one of its calls
seals. -/
theorem run_index (r : Recorded) (calls : List Call) :
    (Recorded.index r).run calls =
      { Recorded.index (r ++ logged calls) with isSealed := calls.any Call.seals } := by
  induction calls generalizing r with
  | nil => simp [run, Recorded.index]
  | cons c calls ih =>
    rw [run_cons, call_index, logged_cons, List.any_cons]
    by_cases hc : c.seals = true
    -- the log ends here, and the calls that follow find the index sealed
    · simp only [hc, if_true, Bool.true_or, List.append_nil]
      exact run_sealed rfl calls
    · simp only [hc, Bool.false_eq_true, if_false, Bool.false_or]
      rw [ih, List.append_assoc]

/-- A fresh index holds the log of its history. -/
theorem run_fresh (calls : List Call) :
    run {} calls = { Recorded.index (logged calls) with isSealed := calls.any Call.seals } :=
  run_index [] calls

theorem run_isSealed (calls : List Call) : (run {} calls).isSealed = calls.any Call.seals := by
  rw [run_fresh]

theorem run_open {calls : List Call} (h : calls.any Call.seals = false) :
    run {} calls = Recorded.index (logged calls) := by
  rw [run_fresh, h]
  rfl

end Index

/-! ## Grouping -/

namespace Recorded

/-- A log grouped by digest: one entry for each digest, in the order in which the digests first
appear, with the places recorded under it in the order of recording. -/
structure Grouped (log : Recorded) (entries : List Entry) : Prop where
  /-- No two entries have one digest. -/
  distinct : (entries.map Entry.digest).Nodup
  /-- The digests are those of the log. -/
  complete : ∀ d, d ∈ entries.map Entry.digest ↔ ∃ o, (d, o) ∈ log
  /-- They stand in the order of first appearance. -/
  ordered : entries.Pairwise fun a b => (log.map (·.1)).idxOf a.digest < (log.map (·.1)).idxOf b.digest
  /-- An entry has the places recorded under its digest. -/
  occurrences : ∀ e ∈ entries, e.occurrences = (log.filter (·.1 = e.digest)).map (·.2)
  /-- These are never none. -/
  nonempty : ∀ e ∈ entries, e.occurrences ≠ []

theorem grouped_index (r : Recorded) : Grouped r (index r).entries where
  distinct := by
    rw [index_digests]
    exact nodup_digests r
  complete := by
    intro d
    rw [index_digests, mem_digests]
  ordered := List.pairwise_map.2 (eraseDups_pairwise_idxOf _)
  occurrences := by
    intro e he
    obtain ⟨d, -, rfl⟩ := List.mem_map.1 he
    rfl
  nonempty := by
    intro e he
    obtain ⟨d, hd, rfl⟩ := List.mem_map.1 he
    obtain ⟨o, ho⟩ := mem_digests.1 hd
    exact List.ne_nil_of_mem (mem_under.2 ho)

/-- The entries are as many as the log has different digests. -/
theorem size_index (r : Recorded) : (index r).size = (r.map (·.1)).toFinset.card := by
  have hsame : (r.map (·.1)).toFinset = (digests r).toFinset := by
    ext d
    simp [digests]
  rw [hsame, List.toFinset_card_of_nodup (nodup_digests r), Index.size, index, List.length_map]

end Recorded

/-- **The index is a log that can be frozen.** After any history of calls on a fresh index: the entries
are the log grouped by digest, and their number is that of its different digests; a method is recorded
under its digest exactly when it has one and no call has sealed the index, and a batch is accepted
exactly when none has; once one has, no further calls change the index, which stays sealed; and the
calls that only look never change it. -/
theorem index_refines_log (calls : List Index.Call) :
    (∃ entries, ((Index.run {} calls).call .entries).1 = .entries entries ∧
      Recorded.Grouped (Index.logged calls) entries) ∧
    ((Index.run {} calls).call .size).1 = .size ((Index.logged calls).map (·.1)).toFinset.card ∧
    (Index.run {} calls).isSealed = calls.any Index.Call.seals ∧
    (∀ source o, ((Index.run {} calls).call (.record source o)).1 =
      .recorded (if calls.any Index.Call.seals then none else (bodyDigest source).toOption)) ∧
    (∀ batch, ((Index.run {} calls).call (.recordDigests batch)).1 =
      .accepted (!calls.any Index.Call.seals)) ∧
    (calls.any Index.Call.seals = true → ∀ more, Index.run {} (calls ++ more) = Index.run {} calls) ∧
    (∀ c : Index.Call, c.reads = true → ((Index.run {} calls).call c).2 = Index.run {} calls) := by
  have hrun := Index.run_fresh calls
  have hsealed := Index.run_isSealed calls
  refine ⟨⟨_, rfl, ?_⟩, ?_, hsealed, fun source o => ?_, fun batch => ?_, fun hs more => ?_,
    fun c hc => Index.call_reads _ hc⟩
  · rw [hrun]
    exact Recorded.grouped_index _
  · rw [hrun, ← Recorded.size_index]
    rfl
  · cases hs : calls.any Index.Call.seals with
    | true => rw [Index.call, (Index.record_sealed (hsealed.trans hs) source o).1, if_pos rfl]
    | false =>
      rw [Index.run_open hs, Index.call, Index.record_index]
      cases bodyDigest source <;> rfl
  · cases hs : calls.any Index.Call.seals with
    | true =>
      rw [Index.call, Index.recordDigests_sealed (hsealed.trans hs)]
      rfl
    | false =>
      rw [Index.run_open hs, Index.call, Recorded.recordDigests_index]
      rfl
  · rw [Index.run_append, Index.run_sealed (hsealed.trans hs)]

/-- A history whose links are resolved before its last batch comes. -/
theorem index_refines_log_resolved :
    Index.run {} ([.recordDigests [("d", ⟨"a", "f", 1⟩)], .duplicateGroups, .resolve] ++
        [.recordDigests [("e", ⟨"b", "f", 1⟩)], .entries]) =
      Index.run {} [.recordDigests [("d", ⟨"a", "f", 1⟩)], .duplicateGroups, .resolve] ∧
    ((Index.run {} [.recordDigests [("d", ⟨"a", "f", 1⟩)], .duplicateGroups, .resolve]).call .size).1 =
      .size 1 ∧
    ((Index.run {} [.recordDigests [("d", ⟨"a", "f", 1⟩)], .duplicateGroups, .resolve]).call
      (.recordDigests [("e", ⟨"b", "f", 1⟩)])).1 = .accepted false := by
  obtain ⟨-, hsize, -, -, hbatch, hfrozen, -⟩ :=
    index_refines_log [.recordDigests [("d", ⟨"a", "f", 1⟩)], .duplicateGroups, .resolve]
  exact ⟨hfrozen rfl _, hsize, hbatch _⟩

end Maintainability
