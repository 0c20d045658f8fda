/-
Archives with a member whose name strays. Such an archive is meant to be refused. It is, when the
member is reached; but the intake stops where it has as many sources as it may, and looks at no
member behind that place. So an archive with a straying member ends with sources exactly when the
members in front of it are more than enough (`fromMembers_straying`), and what stands behind the
member never makes a difference (`members_behind`).
-/
import Maintainability.Proofs.Members
import Maintainability.Proofs.Paths

namespace Maintainability.Intake

variable {c : Config} {l : Language} {archive : String}

/-! ## Members dealt with -/

theorem member_of_admission {taken total : Nat} {m : Archive.Member} {p : Path} {bytes : List UInt8}
    (h : admission c l archive taken total m = .read p) (hbytes : m.content () = .ok bytes) :
    member c l archive taken total m = .take (total + m.size) (decoded? p bytes) (decode p.text bytes).2 := by
  simp only [member_eq, h, hbytes]

/-- A member is taken when it is admitted and can be read. -/
theorem member_take {taken total next : Nat} {m : Archive.Member} {source : Option Source} {notes : List Log.Record}
    (h : member c l archive taken total m = .take next source notes) :
    ∃ p bytes, Admitted c l taken total m p ∧ m.content () = .ok bytes ∧ source = decoded? p bytes := by
  rw [member_eq] at h
  split at h
  · cases h
  · cases h
  · cases h
  · next p hread =>
    split at h
    · cases h
    · next bytes hbytes =>
      cases h
      exact ⟨p, bytes, admitted_of_read hread, hbytes, rfl⟩

theorem member_pass {taken total : Nat} {m : Archive.Member} {notes : List Log.Record}
    (h : member c l archive taken total m = .pass notes) : admission c l archive taken total m = .pass notes := by
  rw [member_eq] at h
  split at h
  · next hpass =>
    cases h
    exact hpass
  · cases h
  · cases h
  · split at h <;> cases h

/-- A run goes on where the members in front were dealt with. -/
theorem Reads.members {before rest : List Archive.Member} {taken taken' : List Source} {total total' : Nat}
    (h : Reads c l archive taken total before taken' total') :
    (Intake.members c l archive taken total (before ++ rest)).1 = (Intake.members c l archive taken' total' rest).1 := by
  induction h with
  | done => rfl
  | pass hstep _ ih => rw [List.cons_append, Intake.members, hstep]; exact ih
  | take hstep _ ih => rw [List.cons_append, Intake.members, hstep]; exact ih

/-- The sources taken are those that the members give. -/
theorem Reads.sources {before : List Archive.Member} {taken taken' : List Source} {total total' : Nat}
    (h : Reads c l archive taken total before taken' total') :
    taken'.reverse = taken.reverse ++ before.filterMap (usable? c l) := by
  induction h with
  | done => simp
  | pass hstep _ ih => rw [ih, List.filterMap_cons_none (usable?_of_pass (member_pass hstep))]
  | @take taken _ _ _ _ _ _ source _ hstep _ ih =>
    obtain ⟨p, bytes, hadmitted, hbytes, rfl⟩ := member_take hstep
    rw [ih, List.filterMap_cons, hadmitted.usable? hbytes]
    cases decoded? p bytes <;> simp

/-- No more sources are taken than allowed. -/
theorem Reads.fits {before : List Archive.Member} {taken taken' : List Source} {total total' : Nat}
    (h : Reads c l archive taken total before taken' total') {n : Nat} (hn : capacity c = some n)
    (hfits : taken.length ≤ n) : taken'.length ≤ n := by
  induction h with
  | done => exact hfits
  | pass _ _ ih => exact ih hfits
  | take hstep _ ih =>
    obtain ⟨p, bytes, hadmitted, -, rfl⟩ := member_take hstep
    have hroom := length_lt_of_room hadmitted.room n hn
    -- there was room for one more source, and at most one was taken
    apply ih
    cases decoded? p bytes with
    | none => exact hfits
    | some s => exact hroom

/-! ## Full intakes -/

/-- The intake is full within some members: those in front of an acceptable one were dealt with, and
the sources taken from them are as many as allowed. -/
inductive FullWithin (c : Config) (l : Language) (archive : String) : List Archive.Member → List Source → Prop
  | intro {before after : List Archive.Member} {m : Archive.Member} {taken : List Source} {total : Nat} {p : Path}
      (dealt : Reads c l archive [] 0 before taken total) (acceptable : Acceptable c l m p)
      (full : isFull c taken.length = true) : FullWithin c l archive (before ++ m :: after) taken.reverse

theorem FullWithin.length_eq {ms : List Archive.Member} {sources : List Source}
    (h : FullWithin c l archive ms sources) : capacity c = some sources.length := by
  obtain ⟨hdealt, -, hfull⟩ := h
  obtain ⟨n, hn, hle⟩ := isFull_iff.1 hfull
  have hfits := hdealt.fits hn (Nat.zero_le n)
  rw [hn, List.length_reverse, Nat.le_antisymm hle hfits]

theorem FullWithin.isPrefix {ms : List Archive.Member} {sources : List Source}
    (h : FullWithin c l archive ms sources) : sources <+: ms.filterMap (usable? c l) := by
  obtain ⟨hdealt, -, -⟩ := h
  rw [hdealt.sources, List.filterMap_append]
  exact List.prefix_append _ _

theorem admission_of_full {taken total : Nat} {m : Archive.Member} {p : Path} (h : Acceptable c l m p)
    (hfull : isFull c taken = true) : admission c l archive taken total m = .stop := by
  have haccepted := h.accepted
  rw [isAccepted] at haccepted
  split at haccepted
  · next b notes haccepts =>
    subst haccepted
    simp only [admission, h.file, h.safe, haccepts, hfull, Bool.false_eq_true, if_false, if_true]
  · cases haccepted

/-! ## Straying members -/

section

variable {m : Archive.Member}

variable (c l archive) in
theorem admission_of_strays (hfile : m.isDirectory = false) (h : Strays m.name) :
    ∃ reason ∈ strayReasons, ∀ taken total,
      admission c l archive taken total m = .refuse (.error (.security reason (some m.name))) := by
  obtain ⟨reason, hreason, hpath⟩ := memberPath_of_strays h
  refine ⟨reason, hreason, fun taken total => ?_⟩
  simp only [admission, hfile, hpath, Bool.false_eq_true, if_false]

/-- Nothing behind a straying member makes a difference. -/
theorem members_behind (hfile : m.isDirectory = false) (h : Strays m.name) (before after : List Archive.Member) :
    ∀ {taken : List Source} {total : Nat},
      members c l archive taken total (before ++ m :: after) = members c l archive taken total (before ++ [m]) := by
  obtain ⟨reason, -, hrefused⟩ := admission_of_strays c l archive hfile h
  induction before with
  | nil =>
    intro taken total
    rw [List.nil_append, List.nil_append, members_cons, members_cons, hrefused]
  | cons x before ih =>
    intro taken total
    rw [List.cons_append, List.cons_append, members_cons, members_cons]
    simp only [ih]

/-- A run over a straying member that ends with sources stops at an acceptable member in front of it. -/
theorem stop_of_members (hfile : m.isDirectory = false) (h : Strays m.name) {after : List Archive.Member}
    {sources : List Source} (ms : List Archive.Member) :
    ∀ {taken : List Source} {total : Nat}, (members c l archive taken total (ms ++ m :: after)).1 = .ok sources →
      ∃ before x behind taken' total' p, ms = before ++ x :: behind ∧ Reads c l archive taken total before taken' total' ∧
        Acceptable c l x p ∧ isFull c taken'.length = true ∧ sources = taken'.reverse := by
  obtain ⟨reason, -, hrefused⟩ := admission_of_strays c l archive hfile h
  induction ms with
  | nil =>
    -- nothing stops the run in front of the straying member, which ends it with a failure
    intro taken total hok
    rw [List.nil_append, members_cons, hrefused] at hok
    cases hok
  | cons y ms ih =>
    intro taken total hok
    rw [List.cons_append, members_cons] at hok
    split at hok
    · next notes hpass =>
      obtain ⟨before, x, behind, taken', total', p, rfl, hreads, hrest⟩ := ih hok
      have hstep : member c l archive taken.length total y = .pass notes := by simp only [member_eq, hpass]
      exact ⟨y :: before, x, behind, taken', total', p, rfl, .pass hstep hreads, hrest⟩
    · next hstop =>
      cases hok
      obtain ⟨hfull, p, hacceptable⟩ := full_of_stop hstop
      exact ⟨[], y, ms, taken, total, p, rfl, .done, hacceptable, hfull, rfl⟩
    · cases hok
    · next q hread =>
      split at hok
      · cases hok
      · next bytes hbytes =>
        obtain ⟨before, x, behind, taken', total', p, rfl, hreads, hrest⟩ := ih hok
        exact ⟨y :: before, x, behind, taken', total', p, rfl,
          .take (member_of_admission hread hbytes) hreads, hrest⟩

theorem fromMembers_straying (hfile : m.isDirectory = false) (h : Strays m.name) {before after : List Archive.Member}
    {sources : List Source} :
    (fromMembers c l archive (before ++ m :: after)).1 = .ok sources ↔ FullWithin c l archive before sources := by
  rw [fromMembers_ok]
  constructor
  · intro hok
    obtain ⟨_, x, _, taken, _, p, rfl, hreads, hacceptable, hfull, rfl⟩ := stop_of_members hfile h before hok
    exact .intro hreads hacceptable hfull
  · rintro ⟨hdealt, hacceptable, hfull⟩
    rw [List.append_assoc, hdealt.members, List.cons_append, members_cons, admission_of_full hacceptable hfull]

end

/-! ## When an archive with a straying member is taken in -/

/-- **An archive with a straying member is refused unless it is full before.** Whatever the configuration
and the members: with a member that is no directory and whose name strays, the intake ends with sources
exactly when it is full within the members in front of it, and then with as many sources as allowed, all
of them from these members. If the member is reached, the archive is refused for its name. What stands
behind it makes no difference. -/
theorem straying_member_exact (c : Config) (l : Language) (archive : String) (before after : List Archive.Member)
    {m : Archive.Member} (hfile : m.isDirectory = false) (hstrays : Strays m.name) :
    (∀ sources, (fromMembers c l archive (before ++ m :: after)).1 = .ok sources ↔
      FullWithin c l archive before sources) ∧
    (∀ sources, FullWithin c l archive before sources →
      capacity c = some sources.length ∧ sources <+: before.filterMap (usable? c l)) ∧
    (∀ taken total, Reads c l archive [] 0 before taken total → ∃ reason ∈ strayReasons,
      (fromMembers c l archive (before ++ m :: after)).1 = .error (.error (.security reason (some m.name)))) ∧
    fromMembers c l archive (before ++ m :: after) = fromMembers c l archive (before ++ [m]) := by
  refine ⟨fun sources => fromMembers_straying hfile hstrays, fun sources h => ⟨h.length_eq, h.isPrefix⟩, ?_, ?_⟩
  · intro taken total hreads
    obtain ⟨reason, hreason, hrefused⟩ := admission_of_strays c l archive hfile hstrays
    have hend : (members c l archive [] 0 (before ++ m :: after)).1 =
        .error (.error (.security reason (some m.name))) := by
      rw [hreads.members, members_cons, hrefused]
    refine ⟨reason, hreason, ?_⟩
    simp only [fromMembers]
    split
    · next h => simp [h] at hend
    · exact hend
  · exact fromMembers_inj.2 (members_behind hfile hstrays before after)

/-- The name leads up, with separators of the other kind. The archive has one source so far, which is all
it may have, but no second one was asked for. -/
theorem straying_member_exact_reached :
    ∃ reason ∈ strayReasons,
      (fromMembers oneSource .java "a.zip" [stored "A.java" [], stored "..\\E.java" [], stored "B.java" []]).1 =
        .error (.error (.security reason (some "..\\E.java"))) := by
  have hfile : (stored "..\\E.java" []).isDirectory = false := by decide
  have hstrays : Strays (stored "..\\E.java" []).name := .parent (by decide)
  obtain ⟨-, -, hreached, -⟩ :=
    straying_member_exact oneSource .java "a.zip" [stored "A.java" []] [stored "B.java" []] hfile hstrays
  have htaken : member oneSource .java "a.zip" 0 0 (stored "A.java" []) = .take 0 (some ⟨"A.java", []⟩) [] := by
    with_unfolding_all rfl
  exact hreached _ _ (.take htaken .done)

/-- Behind two acceptable members, of which one source may be taken, a straying member is not noticed. -/
theorem straying_member_unnoticed :
    (stored "../E.java" []).isDirectory = false ∧ Strays (stored "../E.java" []).name ∧
      (fromMembers oneSource .java "a.zip" [stored "A.java" [], stored "B.java" [], stored "../E.java" []]).1 =
        .ok [⟨"A.java", []⟩] := by
  refine ⟨by decide, .parent (by decide), ?_⟩
  with_unfolding_all rfl

end Maintainability.Intake
