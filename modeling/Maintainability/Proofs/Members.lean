/-
Archives, member by member. What becomes of a member is decided from its name and its declared size
(`admission`) and, if it is admitted, from its content (`member_eq`). So the members that are read
are known (`readings`): they are exactly those whose content makes a difference (`isRead_iff`), and
at each of them all limits are kept (`readings_admitted`), in runs that fail later as well.

A run over members is a gathering (`members_eq_gather`). So if an archive is taken in, its sources are
those that the members give one by one, up to the number that is allowed (`fromMembers_sources`).
-/
import Maintainability.Proofs.Gathering
import Maintainability.Proofs.Uploads

namespace Maintainability.Intake

/-! ## One file -/

/-- A file that is accepted. -/
def isAccepted (c : Config) (l : Language) (p : Path) (size : Nat) : Bool :=
  match accepts c l p size with
  | .ok (b, _) => b
  | .error _ => false

/-- The source of a content under a path, if it can be decoded. -/
def decoded? (p : Path) (bytes : List UInt8) : Option Source :=
  (decode p.text bytes).1.map fun t => ⟨p.text, t⟩

/-- The source that a member gives on its own: it is no directory, its path is safe and accepted, and
its content can be read and decoded. -/
def usable? (c : Config) (l : Language) (m : Archive.Member) : Option Source :=
  if m.isDirectory then none
  else
    match memberPath m.name with
    | .error _ => none
    | .ok p =>
      if isAccepted c l p m.size then
        match m.content () with
        | .error _ => none
        | .ok bytes => decoded? p bytes
      else none

/-- A file that is accepted is not too large. -/
theorem size_of_isAccepted {c : Config} {l : Language} {p : Path} {size : Nat} {limit : Int}
    (hlimit : c.maxFileBytes = .ok limit) (h : isAccepted c l p size = true) : (size : Int) ≤ limit := by
  simp only [isAccepted] at h
  split at h
  · next b notes haccepts =>
    subst h
    simp only [accepts, hlimit] at haccepts
    -- the size is looked at last, when no other reason refuses the file
    split at haccepts
    · cases haccepts
    split at haccepts
    · cases haccepts
    split at haccepts
    · cases haccepts
    split at haccepts
    · cases haccepts
    · cases haccepts
    split at haccepts
    · cases haccepts
    · next hfits => exact Int.not_lt.1 hfits
  · cases h

/-! ## One member -/

/-- What is decided about a member before its content is asked for. -/
inductive Admission where
  | pass (notes : List Log.Record)
  | stop
  | refuse (why : Failure)
  | read (p : Path)

/-- Decides about a member after `taken` sources and `total` bytes. -/
def admission (c : Config) (l : Language) (archive : String) (taken total : Nat) (m : Archive.Member) : Admission :=
  if m.isDirectory then .pass []
  else
    match memberPath m.name with
    | .error e => .refuse (.error e)
    | .ok p =>
      match accepts c l p m.size with
      | .error f => .refuse (.fault f)
      | .ok (false, notes) => .pass notes
      | .ok (true, _) =>
        if isFull c taken then .stop
        else
          match c.maxTotalBytes with
          | .error f => .refuse (.fault f)
          | .ok limit =>
            if limit < total + m.size then .refuse (.error (.archiveTooLarge archive limit)) else .read p

/-- A member is dealt with as it was decided, and if it was admitted, by its content. -/
theorem member_eq (c : Config) (l : Language) (archive : String) (taken total : Nat) (m : Archive.Member) :
    member c l archive taken total m =
      match admission c l archive taken total m with
      | .pass notes => .pass notes
      | .stop => .stop
      | .refuse why => .refuse why []
      | .read p =>
        match m.content () with
        | .error damage => .refuse (archiveFailure archive (some m.name) damage) []
        | .ok bytes => .take (total + m.size) (decoded? p bytes) (decode p.text bytes).2 := by
  rw [member, admission]
  by_cases hdirectory : m.isDirectory = true
  · rw [if_pos hdirectory, if_pos hdirectory]
  rw [if_neg hdirectory, if_neg hdirectory]
  cases memberPath m.name with
  | error e => rfl
  | ok p =>
    dsimp only
    cases accepts c l p m.size with
    | error f => rfl
    | ok verdict =>
      obtain ⟨b, notes⟩ := verdict
      cases b with
      | false => rfl
      | true =>
        by_cases hfull : isFull c taken = true
        · simp only [hfull, if_true]
        simp only [hfull]
        cases c.maxTotalBytes with
        | error f => rfl
        | ok limit =>
          by_cases hlarge : limit < (total : Int) + m.size
          · simp only [hlarge, if_true, Bool.false_eq_true, if_false]
          · simp only [hlarge, if_false, Bool.false_eq_true]
            rfl

/-- A member that counts as a source by its path and its declared size. -/
structure Acceptable (c : Config) (l : Language) (m : Archive.Member) (p : Path) : Prop where
  file : m.isDirectory = false
  safe : memberPath m.name = .ok p
  accepted : isAccepted c l p m.size = true

/-- A member whose content is asked for. -/
structure Admitted (c : Config) (l : Language) (taken total : Nat) (m : Archive.Member) (p : Path) : Prop
    extends Acceptable c l m p where
  room : isFull c taken = false
  fits : ∃ limit, c.maxTotalBytes = .ok limit ∧ (total : Int) + m.size ≤ limit

/-- The grounds for each decision. -/
inductive Grounds (c : Config) (l : Language) (archive : String) (taken total : Nat) (m : Archive.Member) :
    Admission → Prop
  | directory (h : m.isDirectory = true) : Grounds c l archive taken total m (.pass [])
  | escaping {e : Error} (file : m.isDirectory = false) (h : memberPath m.name = .error e) :
      Grounds c l archive taken total m (.refuse (.error e))
  | undecided {p : Path} {f : Fault} (file : m.isDirectory = false) (safe : memberPath m.name = .ok p)
      (h : accepts c l p m.size = .error f) : Grounds c l archive taken total m (.refuse (.fault f))
  | unaccepted {p : Path} {notes : List Log.Record} (file : m.isDirectory = false) (safe : memberPath m.name = .ok p)
      (h : accepts c l p m.size = .ok (false, notes)) : Grounds c l archive taken total m (.pass notes)
  | full {p : Path} (acceptable : Acceptable c l m p) (h : isFull c taken = true) :
      Grounds c l archive taken total m .stop
  | boundless {p : Path} {f : Fault} (acceptable : Acceptable c l m p) (room : isFull c taken = false)
      (h : c.maxTotalBytes = .error f) : Grounds c l archive taken total m (.refuse (.fault f))
  | large {p : Path} {limit : Int} (acceptable : Acceptable c l m p) (room : isFull c taken = false)
      (bounded : c.maxTotalBytes = .ok limit) (h : limit < (total : Int) + m.size) :
      Grounds c l archive taken total m (.refuse (.error (.archiveTooLarge archive limit)))
  | admitted {p : Path} (h : Admitted c l taken total m p) : Grounds c l archive taken total m (.read p)

section

variable {c : Config} {l : Language} {archive : String}

variable (c l archive) in
theorem admission_grounds (taken total : Nat) (m : Archive.Member) :
    Grounds c l archive taken total m (admission c l archive taken total m) := by
  rw [admission]
  split
  · next hdirectory => exact .directory hdirectory
  next hfile =>
  have hfile : m.isDirectory = false := by simpa using hfile
  split
  · next hescaping => exact .escaping hfile hescaping
  next p hsafe =>
  split
  · next hundecided => exact .undecided hfile hsafe hundecided
  · next hunaccepted => exact .unaccepted hfile hsafe hunaccepted
  next haccepted =>
  have hacceptable : Acceptable c l m p := ⟨hfile, hsafe, by rw [isAccepted, haccepted]⟩
  split
  · next hfull => exact .full hacceptable hfull
  next hroom =>
  have hroom : isFull c taken = false := by simpa using hroom
  split
  · next hboundless => exact .boundless hacceptable hroom hboundless
  next limit hbounded =>
  split
  · next hlarge => exact .large hacceptable hroom hbounded hlarge
  · next hfits => exact .admitted ⟨hacceptable, hroom, limit, hbounded, Int.not_lt.1 hfits⟩

theorem admitted_of_read {taken total : Nat} {m : Archive.Member} {p : Path}
    (h : admission c l archive taken total m = .read p) : Admitted c l taken total m p := by
  have hgrounds := admission_grounds c l archive taken total m
  rw [h] at hgrounds
  cases hgrounds with
  | admitted h => exact h

theorem full_of_stop {taken total : Nat} {m : Archive.Member} (h : admission c l archive taken total m = .stop) :
    isFull c taken = true ∧ ∃ p, Acceptable c l m p := by
  have hgrounds := admission_grounds c l archive taken total m
  rw [h] at hgrounds
  cases hgrounds with
  | full hacceptable h => exact ⟨h, _, hacceptable⟩

theorem usable?_of_pass {taken total : Nat} {m : Archive.Member} {notes : List Log.Record}
    (h : admission c l archive taken total m = .pass notes) : usable? c l m = none := by
  have hgrounds := admission_grounds c l archive taken total m
  rw [h] at hgrounds
  cases hgrounds with
  | directory hdirectory => rw [usable?, if_pos hdirectory]
  | unaccepted hfile hsafe hunaccepted =>
    simp only [usable?, hfile, hsafe, isAccepted, hunaccepted, Bool.false_eq_true, if_false]

theorem Acceptable.usable? {m : Archive.Member} {p : Path} (h : Acceptable c l m p) {bytes : List UInt8}
    (hread : m.content () = .ok bytes) : Intake.usable? c l m = decoded? p bytes := by
  simp only [Intake.usable?, h.file, h.safe, hread, h.accepted, Bool.false_eq_true, if_false, if_true]

/-! ## Runs -/

/-- More records in front of those of a run. -/
def noted (notes : List Log.Record) (t : Taken) : Taken := (t.1, notes ++ t.2)

/-- A run over the members, by what is decided about the first one. -/
theorem members_cons (taken : List Source) (total : Nat) (m : Archive.Member) (ms : List Archive.Member) :
    members c l archive taken total (m :: ms) =
      match admission c l archive taken.length total m with
      | .pass notes => noted notes (members c l archive taken total ms)
      | .stop => (.ok taken.reverse, [stopping c archive])
      | .refuse why => (.error why, [])
      | .read p =>
        match m.content () with
        | .error damage => (.error (archiveFailure archive (some m.name) damage), [])
        | .ok bytes =>
          noted (decode p.text bytes).2
            (members c l archive ((decoded? p bytes).toList ++ taken) (total + m.size) ms) := by
  rw [members, member_eq]
  cases admission c l archive taken.length total m with
  | pass notes => rfl
  | stop => rfl
  | refuse why => rfl
  | read p => cases m.content () <;> rfl

/-- What becomes of a member. -/
def memberVerdict (c : Config) (l : Language) (archive : String) (taken total : Nat) (m : Archive.Member) : Verdict :=
  match admission c l archive taken total m with
  | .pass _ => .pass
  | .stop => .stop
  | .refuse why => .fail why
  | .read p =>
    match m.content () with
    | .error damage => .fail (archiveFailure archive (some m.name) damage)
    | .ok bytes => .take (decoded? p bytes)

theorem memberVerdict_justified (taken total : Nat) (m : Archive.Member) :
    Justified c taken (usable? c l m) (memberVerdict c l archive taken total m) := by
  rw [memberVerdict]
  split
  · next hpass => exact .pass (usable?_of_pass hpass)
  · next hstop => exact .stop (full_of_stop hstop).1
  · exact .fail _
  · next p hread =>
    have hadmitted := admitted_of_read hread
    split
    · exact .fail _
    · next bytes hbytes =>
      rw [← hadmitted.usable? hbytes]
      exact .take hadmitted.room

theorem members_eq_gather (ms : List Archive.Member) : ∀ {taken : List Source} {total : Nat},
    (members c l archive taken total ms).1 =
      gather (memberVerdict c l archive) Archive.Member.size taken total ms := by
  induction ms with
  | nil =>
    intro taken total
    rfl
  | cons m ms ih =>
    intro taken total
    rw [members_cons, gather, memberVerdict]
    cases admission c l archive taken.length total m with
    | pass notes => exact ih
    | stop => rfl
    | refuse why => rfl
    | read p =>
      cases m.content () with
      | error damage => rfl
      | ok bytes => exact ih

/-! ## Members that are read -/

/-- A member that is read: those in front of it, and the path under which its content is decoded. -/
structure Reading where
  before : List Archive.Member
  member : Archive.Member
  path : Path

/-- The source that is taken from a member that is read. -/
def Reading.source? (r : Reading) : Option Source :=
  match r.member.content () with
  | .error _ => none
  | .ok bytes => decoded? r.path bytes

/-- The declared sizes of members that are read, taken together. -/
def declared (rs : List Reading) : Nat := total (rs.map (·.member.size))

/-- The members that are read, in order, after the members seen, the sources taken and the bytes read. -/
def readings (c : Config) (l : Language) (archive : String) :
    List Archive.Member → List Source → Nat → List Archive.Member → List Reading
  | _, _, _, [] => []
  | seen, taken, total, m :: rest =>
    match admission c l archive taken.length total m with
    | .pass _ => readings c l archive (seen ++ [m]) taken total rest
    | .stop => []
    | .refuse _ => []
    | .read p =>
      ⟨seen, m, p⟩ ::
        match m.content () with
        | .error _ => []
        | .ok bytes =>
          readings c l archive (seen ++ [m]) ((decoded? p bytes).toList ++ taken) (total + m.size) rest

/-- The limits are kept at every member that is read, for what was taken and read before it. -/
theorem readings_admitted (ms : List Archive.Member) :
    ∀ {seen : List Archive.Member} {taken : List Source} {total : Nat} {earlier : List Reading} {r : Reading}
      {later : List Reading}, readings c l archive seen taken total ms = earlier ++ r :: later →
      Admitted c l (taken.length + (earlier.filterMap Reading.source?).length)
        (total + declared earlier) r.member r.path := by
  induction ms with
  | nil =>
    intro seen taken total earlier r later h
    simp [readings] at h
  | cons m ms ih =>
    intro seen taken total earlier r later h
    rw [readings] at h
    split at h
    · exact ih h
    · simp at h
    · simp at h
    · next p hread =>
      cases earlier with
      | nil =>
        obtain ⟨rfl, -⟩ := List.cons.inj h
        exact admitted_of_read hread
      | cons e earlier =>
        obtain ⟨rfl, hrest⟩ := List.cons.inj h
        split at hrest
        · simp at hrest
        · next bytes hbytes =>
          have hadmitted := ih hrest
          have hsource : Reading.source? ⟨seen, m, p⟩ = decoded? p bytes := by simp only [Reading.source?, hbytes]
          have htaken : ((decoded? p bytes).toList ++ taken).length + (earlier.filterMap Reading.source?).length =
              taken.length + ((⟨seen, m, p⟩ :: earlier).filterMap Reading.source?).length := by
            rw [List.filterMap_cons, hsource]
            cases decoded? p bytes with
            | none => rfl
            | some s =>
              simp only [Option.toList_some, List.length_append, List.length_cons, List.length_nil]
              omega
          have htotal : total + m.size + declared earlier = total + declared (⟨seen, m, p⟩ :: earlier) := by
            simp only [declared, List.map_cons, total_cons]
            omega
          rw [htaken, htotal] at hadmitted
          exact hadmitted

theorem readings_seen (ms : List Archive.Member) :
    ∀ {seen : List Archive.Member} {taken : List Source} {total : Nat} {r : Reading},
      r ∈ readings c l archive seen taken total ms → seen.length ≤ r.before.length := by
  induction ms with
  | nil =>
    intro seen taken total r h
    simp [readings] at h
  | cons m ms ih =>
    intro seen taken total r h
    have hstep : ∀ {taken total}, r ∈ readings c l archive (seen ++ [m]) taken total ms →
        seen.length ≤ r.before.length := by
      intro taken total h
      have hlater := ih h
      rw [List.length_append] at hlater
      omega
    rw [readings] at h
    split at h
    · exact hstep h
    · simp at h
    · simp at h
    · next p hread =>
      rcases List.mem_cons.1 h with rfl | h
      · exact Nat.le_refl _
      · split at h
        · simp at h
        · exact hstep h

/-- Members are read in the order of the archive. -/
theorem readings_ordered (ms : List Archive.Member) :
    ∀ {seen : List Archive.Member} {taken : List Source} {total : Nat},
      (readings c l archive seen taken total ms).Pairwise fun r r' => r.before.length < r'.before.length := by
  induction ms with
  | nil =>
    intro seen taken total
    simp [readings]
  | cons m ms ih =>
    intro seen taken total
    rw [readings]
    split
    · exact ih
    · exact .nil
    · exact .nil
    · refine .cons (fun r hr => ?_) ?_
      · split at hr
        · simp at hr
        · have hseen := readings_seen ms hr
          rw [List.length_append, List.length_singleton] at hseen
          exact hseen
      · split
        · exact .nil
        · exact ih

/-- The content of a member, in its place, makes a difference to a run. -/
def Matters (c : Config) (l : Language) (archive : String) (taken : List Source) (total : Nat)
    (before : List Archive.Member) (m : Archive.Member) (after : List Archive.Member) : Prop :=
  ∃ content, members c l archive taken total (before ++ { m with content := content } :: after) ≠
    members c l archive taken total (before ++ m :: after)

theorem noted_inj {notes : List Log.Record} {t t' : Taken} : noted notes t = noted notes t' ↔ t = t' := by
  simp [noted, Prod.ext_iff]

/-- The content of the first member matters exactly if it is admitted. -/
theorem matters_nil {taken : List Source} {total : Nat} {m : Archive.Member} {after : List Archive.Member} :
    Matters c l archive taken total [] m after ↔ ∃ p, admission c l archive taken.length total m = .read p := by
  have hsame : ∀ content, admission c l archive taken.length total { m with content := content } =
      admission c l archive taken.length total m := fun _ => rfl
  simp only [Matters, List.nil_append, members_cons, hsame]
  cases hadmission : admission c l archive taken.length total m with
  | pass notes => simp
  | stop => simp
  | refuse why => simp
  | read p =>
    simp only [Admission.read.injEq, exists_eq', iff_true]
    -- two contents that end the run in different ways: one of them ends it otherwise than the member's own
    let damaged (kind : FaultKind) : Unit → Except Archive.Damage (List UInt8) := fun _ => .error (.beyond ⟨kind, ""⟩)
    refine Classical.byContradiction fun hnone => ?_
    simp only [ne_eq, not_exists, Classical.not_not] at hnone
    have hboth := (hnone (damaged .value)).trans (hnone (damaged .runtime)).symm
    simp [damaged, archiveFailure] at hboth

/-- The members that are read are those whose content matters. -/
theorem matters_iff {m : Archive.Member} {after : List Archive.Member} (before : List Archive.Member) :
    ∀ (seen : List Archive.Member) {taken : List Source} {total : Nat},
      Matters c l archive taken total before m after ↔
        ∃ p, ⟨seen ++ before, m, p⟩ ∈ readings c l archive seen taken total (before ++ m :: after) := by
  induction before with
  | nil =>
    intro seen taken total
    -- a reading further on has more members in front of it
    have hlater : ∀ {p taken total ms}, (⟨seen, m, p⟩ : Reading) ∉ readings c l archive (seen ++ [m]) taken total ms := by
      intro p taken total ms h
      have hseen := readings_seen ms h
      rw [List.length_append, List.length_singleton] at hseen
      exact Nat.not_succ_le_self _ hseen
    rw [matters_nil, List.append_nil, List.nil_append, readings]
    cases admission c l archive taken.length total m with
    | pass notes => simp [hlater]
    | stop => simp
    | refuse why => simp
    | read p => simp
  | cons x before ih =>
    intro seen taken total
    have hfirst : ∀ {p q}, (⟨seen ++ x :: before, m, p⟩ : Reading) ≠ ⟨seen, x, q⟩ := by
      intro p q h
      have hlength := congrArg (fun r => r.before.length) h
      simp at hlength
    have happend : seen ++ x :: before = seen ++ [x] ++ before := by simp
    simp only [Matters, List.cons_append, members_cons, readings]
    cases admission c l archive taken.length total x with
    | pass notes =>
      simp only [ne_eq, noted_inj]
      rw [happend]
      exact ih _
    | stop => simp
    | refuse why => simp
    | read q =>
      simp only [List.mem_cons, hfirst, false_or]
      cases x.content () with
      | error damage => simp
      | ok bytes =>
        simp only [ne_eq, noted_inj]
        rw [happend]
        exact ih _

end

/-! ## Archives -/

/-- The content of a member, in its place, decides what becomes of an archive: with another content the
intake would end or be recorded otherwise. -/
def IsRead (c : Config) (l : Language) (archive : String) (before : List Archive.Member) (m : Archive.Member)
    (after : List Archive.Member) : Prop :=
  ∃ content, fromMembers c l archive (before ++ { m with content := content } :: after) ≠
    fromMembers c l archive (before ++ m :: after)

theorem fromMembers_inj {c : Config} {l : Language} {archive : String} {ms ms' : List Archive.Member} :
    fromMembers c l archive ms = fromMembers c l archive ms' ↔
      members c l archive [] 0 ms = members c l archive [] 0 ms' := by
  simp only [fromMembers]
  rcases members c l archive [] 0 ms with ⟨_ | sources, notes⟩ <;>
    rcases members c l archive [] 0 ms' with ⟨_ | sources', notes'⟩
  · simp
  · simp
  · simp
  · simp only [Prod.mk.injEq, Except.ok.injEq]
    constructor
    · rintro ⟨rfl, hnotes⟩
      exact ⟨rfl, List.append_cancel_right hnotes⟩
    · rintro ⟨rfl, rfl⟩
      exact ⟨rfl, rfl⟩

theorem isRead_iff {c : Config} {l : Language} {archive : String} {before : List Archive.Member}
    {m : Archive.Member} {after : List Archive.Member} :
    IsRead c l archive before m after ↔
      ∃ p, ⟨before, m, p⟩ ∈ readings c l archive [] [] 0 (before ++ m :: after) := by
  have hmatters : IsRead c l archive before m after ↔ Matters c l archive [] 0 before m after := by
    simp only [IsRead, Matters, ne_eq, fromMembers_inj]
  rw [hmatters, matters_iff before []]
  rfl

theorem fromMembers_ok {c : Config} {l : Language} {archive : String} {ms : List Archive.Member}
    {sources : List Source} :
    (fromMembers c l archive ms).1 = .ok sources ↔ (members c l archive [] 0 ms).1 = .ok sources := by
  simp only [fromMembers]
  split
  · next h => simp [h]
  · rfl

/-- The sources of an archive are those that its members give one by one, up to the number allowed. -/
theorem fromMembers_sources {c : Config} {l : Language} {archive : String} {ms : List Archive.Member}
    {sources : List Source} (h : (fromMembers c l archive ms).1 = .ok sources) :
    sources = upTo (capacity c) (ms.filterMap (usable? c l)) := by
  rw [fromMembers_ok, members_eq_gather] at h
  exact gather_sources memberVerdict_justified ms (fun _ _ => Nat.zero_le _) h

/-- **An archive is read within its limits.** Whatever the members, their names, declared sizes and
contents: the members whose content makes a difference are listed by `readings`, in their order. Each of
them has a safe path, its declared size is within the limit of a file, fewer sources than allowed were
taken from those read before it, and the declared sizes of all read up to it are within the limit of an
archive, however the intake ends. If it ends with sources, these are the first ones that the members
give, as many as are allowed. -/
theorem archive_within_limits (c : Config) (l : Language) (archive : String) (ms : List Archive.Member)
    {fileLimit totalLimit : Int} (hfile : c.maxFileBytes = .ok fileLimit)
    (htotal : c.maxTotalBytes = .ok totalLimit) :
    (∀ before m after, ms = before ++ m :: after →
      (IsRead c l archive before m after ↔ ∃ p, ⟨before, m, p⟩ ∈ readings c l archive [] [] 0 ms)) ∧
    ((readings c l archive [] [] 0 ms).Pairwise fun r r' => r.before.length < r'.before.length) ∧
    (∀ earlier r later, readings c l archive [] [] 0 ms = earlier ++ r :: later →
      memberPath r.member.name = .ok r.path ∧ (r.member.size : Int) ≤ fileLimit ∧
      (∀ n, capacity c = some n → (earlier.filterMap Reading.source?).length < n) ∧
      (declared (earlier ++ [r]) : Int) ≤ totalLimit) ∧
    ∀ sources, (fromMembers c l archive ms).1 = .ok sources →
      sources = upTo (capacity c) (ms.filterMap (usable? c l)) := by
  refine ⟨?_, readings_ordered ms, ?_, fun sources h => fromMembers_sources h⟩
  · rintro before m after rfl
    exact isRead_iff
  · intro earlier r later h
    have hadmitted := readings_admitted ms h
    obtain ⟨limit, hlimit, hfits⟩ := hadmitted.fits
    cases htotal.symm.trans hlimit
    rw [List.length_nil, Nat.zero_add] at hadmitted
    refine ⟨hadmitted.safe, size_of_isAccepted hfile hadmitted.accepted, length_lt_of_room hadmitted.room, ?_⟩
    have hsum : declared (earlier ++ [r]) = declared earlier + r.member.size := by
      rw [declared, List.map_append]
      exact List.sum_append
    omega

/-- A member that holds what it is declared to hold. -/
def stored (name : String) (bytes : List UInt8) : Archive.Member := ⟨name, bytes.length, fun _ => .ok bytes⟩

/-- A configuration that allows one source and excludes nothing by patterns. -/
def oneSource : Config := ⟨fun f => match f with
  | .excludePatterns => .list []
  | .maxFiles => .int 1
  | f => f.default⟩

/-- Two members are read, the first of which is not UTF-8 and gives no source; then the archive is full,
and its last two members are not read. -/
theorem archive_within_limits_surplus :
    let ms := [stored "B.java" [0xFF], stored "src\\A.java" [0x61], stored "C.java" [], stored "../D.java" []]
    (fromMembers oneSource .java "a.zip" ms).1 = .ok [⟨"src/A.java", .ofString "a"⟩] ∧
      [⟨"src/A.java", .ofString "a"⟩] = upTo (some 1) (ms.filterMap (usable? oneSource .java)) ∧
      IsRead oneSource .java "a.zip" [stored "B.java" [0xFF]] (stored "src\\A.java" [0x61])
        [stored "C.java" [], stored "../D.java" []] ∧
      ¬ IsRead oneSource .java "a.zip" [stored "B.java" [0xFF], stored "src\\A.java" [0x61]] (stored "C.java" [])
        [stored "../D.java" []] := by
  intro ms
  have hread : readings oneSource .java "a.zip" [] [] 0 ms =
      [⟨[], stored "B.java" [0xFF], ⟨0, ["B.java".toList]⟩⟩,
        ⟨[stored "B.java" [0xFF]], stored "src\\A.java" [0x61], ⟨0, ["src".toList, "A.java".toList]⟩⟩] := by
    with_unfolding_all rfl
  have hsources : (fromMembers oneSource .java "a.zip" ms).1 = .ok [⟨"src/A.java", .ofString "a"⟩] := by
    with_unfolding_all rfl
  have hfile : oneSource.maxFileBytes = .ok 10485760 := rfl
  have htotal : oneSource.maxTotalBytes = .ok 209715200 := rfl
  obtain ⟨hisRead, -, -, hresult⟩ := archive_within_limits oneSource .java "a.zip" ms hfile htotal
  refine ⟨hsources, hresult _ hsources, (hisRead _ _ _ rfl).2 ⟨⟨0, ["src".toList, "A.java".toList]⟩, ?_⟩, fun h => ?_⟩
  · simp [hread]
  · obtain ⟨p, hp⟩ := (hisRead _ _ _ rfl).1 h
    simp [hread] at hp

end Maintainability.Intake
