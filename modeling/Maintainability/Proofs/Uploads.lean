/-
Faults of the intake. Taking in an upload is meant to end with sources or with an error of the
analyzer, and does so unless it is an archive. The causes of a fault are said one by one, for any
reader of archives: the reader fails on opening the archive (`Escapes`), a member is compared with
what is no pattern (`NoPattern`), a limit on sizes is not finite (`Boundless`), or the reader fails
on the content of a member (`Breaks`). There are no others (`fromUploadBy_fault`), and the service
answers none of them as an error of the upload (`receive_status`).
-/
import Maintainability.Proofs.Archives
import Maintainability.Proofs.Rules
import Maintainability.Service

namespace Maintainability

/-! ## Configurations that obey their rules -/

namespace Config

/-- The sizes that are given in megabytes. -/
def sizes : List Field := [.maxFileSizeMb, .maxUploadMb, .maxTotalMb]

/-- The sizes of a configuration that obeys its rules are numbers. -/
theorem size_number {c : Config} (hc : c.broken? = .ok none) {field : Field} (h : field ∈ sizes) :
    ∃ q, (c.get field).number? = some q := by
  have hrule : (⟨field, atMostZero, "must be positive"⟩ : Rule) ∈ rules := by
    simp only [sizes, List.mem_cons, List.not_mem_nil, or_false] at h
    rcases h with rfl | rfl | rfl <;> simp [rules]
  have hnot := firstBroken_none.1 hc _ hrule
  simp only [Passes, atMostZero, compare] at hnot
  split at hnot
  · next q hq => exact ⟨q, hq⟩
  · cases hnot

/-- A number of megabytes that has no number of bytes, and the fault that it causes. -/
inductive Boundless : Value → Fault → Prop
  | nan {x : Float} (h : (x * 1024.0 * 1024.0).isNaN = true) :
      Boundless (.real x) ⟨.value, "cannot convert float NaN to integer"⟩
  | infinite {x : Float} (number : (x * 1024.0 * 1024.0).isNaN = false)
      (h : Binary64.isFinite (x * 1024.0 * 1024.0) = false) :
      Boundless (.real x) ⟨.overflow, "cannot convert float infinity to integer"⟩

theorem bytesOf_real {x : Float} {f : Fault} : bytesOf (.real x) = .error f ↔ Boundless (.real x) f := by
  simp only [bytesOf, Value.number?]
  constructor
  · intro h
    split at h
    · next hnan =>
      cases h
      exact .nan hnan
    · next hnan =>
      split at h
      · next hinf =>
        cases h
        exact .infinite (eq_false_of_ne_true hnan) (by simpa only [Bool.not_eq_true'] using hinf)
      · cases h
  · intro h
    cases h with
    | nan h => simp only [h, if_true]
    | infinite hnan hinf => simp only [hnan, hinf, Bool.not_false, Bool.false_eq_true, if_false, if_true]

/-- A size of a configuration that obeys its rules is out of reach only if it is not finite. -/
theorem bytesOf_error {c : Config} (hc : c.broken? = .ok none) {field : Field} (h : field ∈ sizes) {f : Fault} :
    bytesOf (c.get field) = .error f ↔ Boundless (c.get field) f := by
  obtain ⟨q, hq⟩ := size_number hc h
  generalize c.get field = v at hq ⊢
  cases v with
  | real x => exact bytesOf_real
  | bool b | int n => exact ⟨nofun, nofun⟩
  | _ => cases hq

end Config

/-! ## Patterns -/

/-- A pattern cannot be compared with a path exactly when it is empty. -/
theorem Glob.matches?_eq_none {pattern : Pattern} {path : Path} :
    matches? pattern path = none ↔ pattern.isEmpty = true := by
  simp only [matches?]
  split
  · next h => simp [h]
  · next h => split <;> simp [h]

namespace Intake

open Config (Boundless)

/-- A value that is no text and counts as true, and the fault that reading it as a pattern causes. -/
inductive Misused : Value → Fault → Prop
  | table {ms : List (Text × Value)} (h : ms ≠ []) : Misused (.table ms) ⟨.key, "0"⟩
  | slash {vs : List Value} :
      Misused (.list (.str "/" :: vs)) ⟨.attribute, "'list' object has no attribute 'lstrip'"⟩
  | slashBehind {v : Value} {vs : List Value} (hv : v ≠ .str "/") (h : .str "/" ∈ vs) :
      Misused (.list (v :: vs)) ⟨.attribute, "'list' object has no attribute 'split'"⟩
  | list {v : Value} {vs : List Value} (hv : v ≠ .str "/") (h : .str "/" ∉ vs) :
      Misused (.list (v :: vs)) ⟨.type, "intern() argument must be str, not list"⟩
  | scalar {v : Value} (notText : ∀ t, v ≠ .text t) (notTable : ∀ ms, v ≠ .table ms) (notList : ∀ vs, v ≠ .list vs)
      (h : v.isFalsy = false) : Misused v ⟨.type, "'" ++ v.kindName ++ "' object is not subscriptable"⟩

/-- A value that is no pattern, and the fault that it causes, whatever path it is compared with. -/
inductive NoPattern : Value → Fault → Prop
  | empty {t : Text} (h : (Glob.Pattern.ofText t).isEmpty = true) : NoPattern (.text t) ⟨.value, "empty pattern"⟩
  | falsy {v : Value} (notText : ∀ t, v ≠ .text t) (h : v.isFalsy = true) : NoPattern v ⟨.value, "empty pattern"⟩
  | misused {v : Value} {f : Fault} (h : Misused v f) : NoPattern v f

theorem isSlash_iff {v : Value} : isSlash v = true ↔ v = .str "/" := by
  have hslash : Value.str "/" = .text [Glob.slash] := rfl
  rw [hslash]
  cases v <;> simp [isSlash]

theorem any_isSlash {vs : List Value} : vs.any isSlash = true ↔ .str "/" ∈ vs := by
  simp [List.any_eq_true, isSlash_iff]

theorem misuse_list (v : Value) (vs : List Value) : Misused (.list (v :: vs)) (misuse (.list (v :: vs))) := by
  have hfalsy : (Value.list (v :: vs)).isFalsy = false := rfl
  simp only [misuse, hfalsy, Bool.false_eq_true, if_false]
  split
  · next hv =>
    rw [isSlash_iff.1 hv]
    exact .slash
  next hv =>
  have hv : v ≠ .str "/" := mt isSlash_iff.2 hv
  split
  · next hvs => exact .slashBehind hv (any_isSlash.1 hvs)
  · next hvs => exact .list hv (mt any_isSlash.2 hvs)

theorem misused_misuse {v : Value} (notText : ∀ t, v ≠ .text t) (h : v.isFalsy = false) : Misused v (misuse v) := by
  cases v with
  | text t => exact absurd rfl (notText t)
  | table ms =>
    have hne : ms ≠ [] := by simpa [Value.isFalsy] using h
    simpa [misuse, h] using Misused.table hne
  | list vs =>
    cases vs with
    | nil => cases h
    | cons v vs => exact misuse_list v vs
  | _ =>
    simp only [misuse, h, Bool.false_eq_true, if_false]
    exact .scalar nofun nofun nofun h

theorem misuse_falsy {v : Value} (h : v.isFalsy = true) : misuse v = ⟨.value, "empty pattern"⟩ := by
  unfold misuse
  rw [if_pos h]

theorem isMatch_of_not_text {p : Path} {v : Value} (notText : ∀ t, v ≠ .text t) : isMatch p v = .error (misuse v) := by
  cases v with
  | text t => exact absurd rfl (notText t)
  | _ => rfl

theorem Misused.unique {v : Value} {f g : Fault} (hf : Misused v f) (hg : Misused v g) : f = g := by
  cases hf <;> cases hg <;> simp_all

theorem Misused.isFalsy {v : Value} {f : Fault} (h : Misused v f) : v.isFalsy = false ∧ ∀ t, v ≠ .text t := by
  cases h <;> simp_all [Value.isFalsy]

theorem isMatch_error {p : Path} {v : Value} {f : Fault} : isMatch p v = .error f ↔ NoPattern v f := by
  constructor
  · intro h
    simp only [isMatch] at h
    split at h
    · split at h
      · cases h
      · next t hnone =>
        cases h
        exact .empty (Glob.matches?_eq_none.1 hnone)
    · next hnot =>
      cases h
      cases hf : v.isFalsy with
      | true =>
        rw [misuse_falsy hf]
        exact .falsy hnot hf
      | false => exact .misused (misused_misuse hnot hf)
  · intro h
    cases h with
    | empty h => simp only [isMatch, Glob.matches?_eq_none.2 h]
    | falsy hnot h => rw [isMatch_of_not_text hnot, misuse_falsy h]
    | misused h =>
      obtain ⟨hfalsy, hnot⟩ := h.isFalsy
      rw [isMatch_of_not_text hnot, h.unique (misused_misuse hnot hfalsy)]

/-- A path that cannot be compared with all patterns: they are no list of values, or one of them is no
pattern and none before it matches. -/
inductive Unmatchable (p : Path) (patterns : Value) : Fault → Prop
  | listing {f : Fault} (h : patternsOf patterns = .error f) : Unmatchable p patterns f
  | pattern {f : Fault} {before after : List Value} {v : Value} (listed : patternsOf patterns = .ok (before ++ v :: after))
      (passed : ∀ x ∈ before, isMatch p x = .ok false) (h : NoPattern v f) : Unmatchable p patterns f

theorem anyMatch_error {p : Path} {f : Fault} {vs : List Value} : anyMatch p vs = .error f ↔
    ∃ before v after, vs = before ++ v :: after ∧ (∀ x ∈ before, isMatch p x = .ok false) ∧ NoPattern v f := by
  induction vs with
  | nil => simp [anyMatch]
  | cons v vs ih =>
    simp only [anyMatch, bind, Except.bind]
    constructor
    · intro h
      split at h
      · next e he =>
        cases h
        exact ⟨[], v, vs, rfl, by simp, isMatch_error.1 he⟩
      · next b hb =>
        cases b with
        | true => cases h
        | false =>
          obtain ⟨before, x, after, rfl, hpassed, hx⟩ := ih.1 h
          exact ⟨v :: before, x, after, rfl, List.forall_mem_cons.2 ⟨hb, hpassed⟩, hx⟩
    · rintro ⟨before, x, after, hsplit, hpassed, hx⟩
      cases before with
      | nil =>
        obtain ⟨rfl, rfl⟩ := List.cons.inj hsplit
        rw [isMatch_error.2 hx]
      | cons y before =>
        obtain ⟨rfl, rfl⟩ := List.cons.inj hsplit
        obtain ⟨hy, hbefore⟩ := List.forall_mem_cons.1 hpassed
        rw [hy]
        exact ih.2 ⟨before, x, after, rfl, hbefore, hx⟩

theorem isExcluded_error {p : Path} {patterns : Value} {f : Fault} :
    isExcluded p patterns = .error f ↔ Unmatchable p patterns f := by
  simp only [isExcluded, bind, Except.bind]
  constructor
  · intro h
    split at h
    · next e he =>
      cases h
      exact .listing he
    · next vs hvs =>
      obtain ⟨before, v, after, rfl, hpassed, hv⟩ := anyMatch_error.1 h
      exact .pattern hvs hpassed hv
  · intro h
    cases h with
    | listing h => rw [h]
    | pattern listed passed h =>
      rw [listed]
      exact anyMatch_error.2 ⟨_, _, _, rfl, passed, h⟩

/-! ## Members -/

/-- A path that counts as a source by its name and place alone. -/
structure Candidate (c : Config) (l : Language) (p : Path) : Prop where
  named : l.matchesName p.name = true
  placed : (p.parts.dropLast.any fun s => l.skippedDirectories.any (·.toList == s)) = false
  shown : ¬ ((c.get .allowHiddenFiles).isFalsy = true ∧ p.parts.any isHidden = true)

/-- A path whose selection ends with a fault. -/
inductive Undecided (c : Config) (l : Language) (p : Path) : Fault → Prop
  | pattern {f : Fault} (candidate : Candidate c l p) (h : Unmatchable p (c.get .excludePatterns) f) : Undecided c l p f
  | limit {f : Fault} (candidate : Candidate c l p) (kept : isExcluded p (c.get .excludePatterns) = .ok false)
      (h : Boundless (c.get .maxFileSizeMb) f) : Undecided c l p f

theorem accepts_error {c : Config} (hc : c.broken? = .ok none) {l : Language} {p : Path} {size : Int} {f : Fault} :
    accepts c l p size = .error f ↔ Undecided c l p f := by
  have hlimit : c.maxFileBytes = .error f ↔ Boundless (c.get .maxFileSizeMb) f :=
    Config.bytesOf_error hc (.head _)
  constructor
  · intro h
    simp only [accepts] at h
    split at h
    · cases h
    next hnamed =>
    split at h
    · cases h
    next hplaced =>
    split at h
    · cases h
    next hshown =>
    have hcandidate : Candidate c l p := ⟨by simpa using hnamed, eq_false_of_ne_true hplaced, hshown⟩
    split at h
    · next e he =>
      cases h
      exact .pattern hcandidate (isExcluded_error.1 he)
    · cases h
    next hkept =>
    split at h
    · next e he =>
      cases h
      exact .limit hcandidate hkept (hlimit.1 he)
    · split at h <;> cases h
  · intro h
    cases h with
    | pattern hcandidate h =>
      simp only [accepts, hcandidate.named, hcandidate.placed, hcandidate.shown, isExcluded_error.2 h,
        Bool.not_true, Bool.false_eq_true, if_false]
    | limit hcandidate hkept h =>
      simp only [accepts, hcandidate.named, hcandidate.placed, hcandidate.shown, hkept, hlimit.2 h,
        Bool.not_true, Bool.false_eq_true, if_false]

/-- A member that causes a fault when its turn comes after so many sources and bytes: its selection ends
with one, the limit on all sources is not finite, or its content cannot be had for a reason that is not
damage to the archive. -/
inductive Breaks (c : Config) (l : Language) (taken total : Nat) (m : Archive.Member) : Fault → Prop
  | selection {f : Fault} {p : Path} (file : m.isDirectory = false) (safe : memberPath m.name = .ok p)
      (h : Undecided c l p f) : Breaks c l taken total m f
  | limit {f : Fault} {p : Path} (file : m.isDirectory = false) (safe : memberPath m.name = .ok p)
      (accepted : ∃ notes, accepts c l p m.size = .ok (true, notes)) (room : isFull c taken = false)
      (h : Boundless (c.get .maxTotalMb) f) : Breaks c l taken total m f
  | content {f : Fault} {p : Path} {limit : Int} (file : m.isDirectory = false) (safe : memberPath m.name = .ok p)
      (accepted : ∃ notes, accepts c l p m.size = .ok (true, notes)) (room : isFull c taken = false)
      (bounded : c.maxTotalBytes = .ok limit) (fits : (total : Int) + m.size ≤ limit)
      (h : m.content () = .error (.beyond f)) : Breaks c l taken total m f

section Member

variable {c : Config} {l : Language} {archive : String} {taken total : Nat} {m : Archive.Member} {f : Fault}

theorem maxTotalBytes_error (hc : c.broken? = .ok none) :
    c.maxTotalBytes = .error f ↔ Boundless (c.get .maxTotalMb) f :=
  Config.bytesOf_error hc (.tail _ (.tail _ (.head _)))

theorem breaks_of_member (hc : c.broken? = .ok none) {notes : List Log.Record}
    (h : member c l archive taken total m = .refuse (.fault f) notes) : Breaks c l taken total m f := by
  simp only [member] at h
  split at h
  · cases h
  next hfile =>
  have hfile : m.isDirectory = false := by simpa using hfile
  split at h
  · cases h
  next p hsafe =>
  split at h
  · next e he =>
    cases h
    exact .selection hfile hsafe ((accepts_error hc).1 he)
  · cases h
  next hnotes haccepted =>
  split at h
  · cases h
  next hroom =>
  have hroom : isFull c taken = false := by simpa using hroom
  split at h
  · next e he =>
    cases h
    exact .limit hfile hsafe ⟨_, haccepted⟩ hroom ((maxTotalBytes_error hc).1 he)
  next limit hbounded =>
  split at h
  · cases h
  next hfits =>
  split at h
  · next damage hdamage =>
    cases damage with
    | broken why => cases h
    | beyond e =>
      cases h
      exact .content hfile hsafe ⟨_, haccepted⟩ hroom hbounded (Int.not_lt.1 hfits) hdamage
  · cases h

theorem member_of_breaks (hc : c.broken? = .ok none) (h : Breaks c l taken total m f) :
    ∃ notes, member c l archive taken total m = .refuse (.fault f) notes := by
  cases h with
  | selection hfile hsafe h => simp [member, hfile, hsafe, (accepts_error hc).2 h]
  | limit hfile hsafe haccepted hroom h =>
    obtain ⟨notes, haccepted⟩ := haccepted
    simp [member, hfile, hsafe, haccepted, hroom, (maxTotalBytes_error hc).2 h]
  | content hfile hsafe haccepted hroom hbounded hfits h =>
    obtain ⟨notes, haccepted⟩ := haccepted
    refine ⟨[], ?_⟩
    simp only [member, hfile, hsafe, haccepted, hroom, hbounded, if_neg (Int.not_lt.2 hfits), h, archiveFailure,
      Bool.false_eq_true, if_false]

theorem member_fault (hc : c.broken? = .ok none) :
    (∃ notes, member c l archive taken total m = .refuse (.fault f) notes) ↔ Breaks c l taken total m f :=
  ⟨fun ⟨_, h⟩ => breaks_of_member hc h, member_of_breaks hc⟩

end Member

/-! ## Archives -/

/-- Members dealt with one after the other, none of which stops or refuses the archive: from sources
and bytes before them to those after them. -/
inductive Reads (c : Config) (l : Language) (archive : String) :
    List Source → Nat → List Archive.Member → List Source → Nat → Prop
  | done {taken : List Source} {total : Nat} : Reads c l archive taken total [] taken total
  | pass {taken taken' : List Source} {total total' : Nat} {m : Archive.Member} {ms : List Archive.Member}
      {notes : List Log.Record} (h : member c l archive taken.length total m = .pass notes)
      (rest : Reads c l archive taken total ms taken' total') : Reads c l archive taken total (m :: ms) taken' total'
  | take {taken taken' : List Source} {total next total' : Nat} {m : Archive.Member} {ms : List Archive.Member}
      {source : Option Source} {notes : List Log.Record}
      (h : member c l archive taken.length total m = .take next source notes)
      (rest : Reads c l archive (source.toList ++ taken) next ms taken' total') :
      Reads c l archive taken total (m :: ms) taken' total'

theorem members_fault {c : Config} (hc : c.broken? = .ok none) {l : Language} {archive : String} {f : Fault} :
    ∀ {ms : List Archive.Member} {taken : List Source} {total : Nat},
      (members c l archive taken total ms).1 = .error (.fault f) ↔
        ∃ before m after taken' total', ms = before ++ m :: after ∧
          Reads c l archive taken total before taken' total' ∧ Breaks c l taken'.length total' m f := by
  intro ms
  -- what was taken before the members changes from one to the next, so it stays general
  induction ms with
  | nil => simp [members]
  | cons m ms ih =>
    intro taken total
    simp only [members]
    constructor
    · intro h
      split at h
      · next hstep =>
        obtain ⟨before, x, after, taken', total', rfl, hreads, hbreaks⟩ := ih.1 h
        exact ⟨m :: before, x, after, taken', total', rfl, .pass hstep hreads, hbreaks⟩
      · cases h
      · next hstep =>
        cases h
        exact ⟨[], m, ms, taken, total, rfl, .done, (member_fault hc).1 ⟨_, hstep⟩⟩
      · next hstep =>
        obtain ⟨before, x, after, taken', total', rfl, hreads, hbreaks⟩ := ih.1 h
        exact ⟨m :: before, x, after, taken', total', rfl, .take hstep hreads, hbreaks⟩
    · rintro ⟨before, x, after, taken', total', hsplit, hreads, hbreaks⟩
      cases hreads with
      | done =>
        obtain ⟨rfl, rfl⟩ := List.cons.inj hsplit
        obtain ⟨notes, hstep⟩ : ∃ notes, member c l archive taken.length total m = .refuse (.fault f) notes :=
          (member_fault hc).2 hbreaks
        rw [hstep]
      | pass hstep hreads =>
        obtain ⟨rfl, rfl⟩ := List.cons.inj hsplit
        rw [hstep]
        exact ih.2 ⟨_, x, after, taken', total', rfl, hreads, hbreaks⟩
      | take hstep hreads =>
        obtain ⟨rfl, rfl⟩ := List.cons.inj hsplit
        rw [hstep]
        exact ih.2 ⟨_, x, after, taken', total', rfl, hreads, hbreaks⟩

/-- An archive whose intake ends with a fault: it cannot be opened for a reason that is not damage, or a
member that is reached causes one. -/
inductive Escapes (r : Archive.Reader) (c : Config) (l : Language) (archive : String) (bytes : List UInt8) :
    Fault → Prop
  | opening {f : Fault} (h : r bytes = .error (.beyond f)) : Escapes r c l archive bytes f
  | member {f : Fault} {before after : List Archive.Member} {m : Archive.Member} {taken : List Source} {total : Nat}
      (listed : r bytes = .ok (before ++ m :: after))
      (reached : Reads c l archive [] 0 before taken total) (h : Breaks c l taken.length total m f) :
      Escapes r c l archive bytes f

theorem fromMembers_fault {c : Config} {l : Language} {archive : String} {ms : List Archive.Member} {f : Fault} :
    (fromMembers c l archive ms).1 = .error (.fault f) ↔ (members c l archive [] 0 ms).1 = .error (.fault f) := by
  simp only [fromMembers]
  split
  · next h => simp [h]
  · rfl

variable {r : Archive.Reader}

theorem fromArchiveBy_fault {c : Config} (hc : c.broken? = .ok none) {l : Language} (hl : languageOf c = .ok l)
    {archive : String} {bytes : List UInt8} {f : Fault} :
    (fromArchiveBy r c archive bytes).1 = .error (.fault f) ↔ Escapes r c l archive bytes f := by
  simp only [fromArchiveBy, hl]
  constructor
  · intro h
    split at h
    · next damage hdamage =>
      cases damage with
      | broken why => cases h
      | beyond e =>
        cases h
        exact .opening hdamage
    · next ms hms =>
      obtain ⟨before, m, after, taken, total, rfl, hreads, hbreaks⟩ := (members_fault hc).1 (fromMembers_fault.1 h)
      exact .member hms hreads hbreaks
  · intro h
    cases h with
    | opening h => simp only [h, archiveFailure]
    | member hlisted hreached h =>
      rw [hlisted]
      exact fromMembers_fault.2 ((members_fault hc).2 ⟨_, _, _, _, _, rfl, hreached, h⟩)

/-! ## Kinds of faults -/

/-- The kinds of faults in which the intake of an archive may end on its own account. -/
def ownKinds : List FaultKind := [.value, .type, .overflow, .key, .attribute]

theorem Boundless.kind_mem {v : Value} {f : Fault} (h : Boundless v f) : f.kind ∈ ownKinds := by
  cases h <;> simp [ownKinds]

theorem NoPattern.kind_mem {v : Value} {f : Fault} (h : NoPattern v f) : f.kind ∈ ownKinds := by
  cases h with
  | misused h => cases h <;> simp [ownKinds]
  | _ => simp [ownKinds]

theorem Unmatchable.kind_mem {p : Path} {patterns : Value} {f : Fault} (h : Unmatchable p patterns f) :
    f.kind ∈ ownKinds := by
  cases h with
  | listing h => cases patterns <;> cases h <;> simp [ownKinds]
  | pattern _ _ h => exact h.kind_mem

theorem Breaks.kind_mem {c : Config} {l : Language} {taken total : Nat} {m : Archive.Member} {f : Fault}
    (h : Breaks c l taken total m f) : f.kind ∈ ownKinds ∨ m.content () = .error (.beyond f) := by
  cases h with
  | selection _ _ h =>
    cases h with
    | pattern _ h => exact .inl h.kind_mem
    | limit _ _ h => exact .inl (Boundless.kind_mem h)
  | limit _ _ _ _ h => exact .inl (Boundless.kind_mem h)
  | content _ _ _ _ _ _ h => exact .inr h

/-- A fault is of the intake's own account, or the reader raises it. -/
theorem Escapes.kind_mem {c : Config} {l : Language} {archive : String} {bytes : List UInt8} {f : Fault}
    (h : Escapes r c l archive bytes f) : f.kind ∈ ownKinds ∨ Archive.Raises r bytes f := by
  cases h with
  | opening h => exact .inr (.opening h)
  | member hlisted _ h => exact h.kind_mem.imp_right (.content hlisted (by simp))

/-! ## Uploads -/

/-- The name of an upload: the last segment of its path. -/
def uploadName (fileName : String) : List Char := (Path.ofString (Source.slashed fileName)).name

theorem fromUploadBy_fault {c : Config} (hc : c.broken? = .ok none) {l : Language} (hl : languageOf c = .ok l)
    {fileName : String} {bytes : List UInt8} {f : Fault} :
    (fromUploadBy r c fileName bytes).1 = .error (.fault f) ↔
      isZipName (uploadName fileName) = true ∧ Escapes r c l (String.ofList (uploadName fileName)) bytes f := by
  have hname : (Path.ofString (Source.slashed fileName)).name = uploadName fileName := rfl
  rw [← fromArchiveBy_fault hc hl, fromUploadBy]
  simp only [hname, hl]
  by_cases hempty : uploadName fileName = []
  · simp [hempty, isZipName, Characters.lower]
  · by_cases hzip : isZipName (uploadName fileName) = true
    · simp [hempty, hzip]
    · simp only [hempty, hzip, List.isEmpty_iff, if_false, Bool.false_eq_true, false_and, iff_false]
      split <;> simp [single]

end Intake

/-! ## The service -/

namespace Service

/-- The run of a service on the sources of an upload. -/
def run (s : Service) (k : Clock) (sources : List Source) : Except Failure Result :=
  (analyze s.config.options s.parser (k.timeline s.config.options sources) sources).1

/-- How an upload that is not too large ends. -/
def ended (s : Service) (k : Clock) (fileName : String) (bytes : List UInt8) : Except Failure Result :=
  match (Intake.fromUploadBy s.reader s.config fileName bytes).1 with
  | .error e => .error e
  | .ok sources => s.run k sources

theorem receive_within {s : Service} {limit : Int} (hlimit : s.config.maxUploadBytes = .ok limit)
    (hreadable : limit < mostBytes) {bytes : List UInt8} (hfits : bytes.length ≤ limit) (k : Clock)
    (fileName : String) : (s.receive k fileName bytes).1 = (conclude fileName (s.ended k fileName bytes)).1 := by
  have hasked : ¬ mostBytes < limit + 1 := by omega
  simp only [receive, hlimit, if_neg hasked, if_neg (Int.not_lt.2 hfits), ended]
  cases (Intake.fromUploadBy s.reader s.config fileName bytes).1 <;> rfl

theorem statusOf_mem (e : Error) : statusOf e ∈ [400, 413, 504] := by
  cases e <;> simp [statusOf]

/-- A run on an upload that the service cannot answer: it ends with a fault, or its result cannot be sent. -/
def Unanswered (ended : Except Failure Result) : Prop :=
  (∃ f, ended = .error (.fault f)) ∨ ∃ r, ended = .ok r ∧ ¬ IsServable r.toJson

theorem conclude_status (fileName : String) (ended : Except Failure Result) :
    ((conclude fileName ended).1.status = 500 ↔ Unanswered ended) ∧
      (conclude fileName ended).1.status ∈ [200, 400, 413, 504, 500] := by
  match ended with
  | .ok r =>
    by_cases hr : IsServable r.toJson
    · simp [conclude, Unanswered, hr]
    · simp [conclude, Unanswered, hr, internalError]
  | .error (.fault f) => simp [conclude, Unanswered, internalError]
  | .error (.error e) =>
    have he := statusOf_mem e
    simp only [List.mem_cons, List.not_mem_nil, or_false] at he
    rcases he with he | he | he <;> simp [conclude, Unanswered, he]

/-- An upload that the service takes in: its limit is finite and can be asked for, and the upload keeps to it. -/
def Admits (s : Service) (bytes : List UInt8) : Prop :=
  ∃ limit, s.config.maxUploadBytes = .ok limit ∧ limit < mostBytes ∧ bytes.length ≤ limit

/-- An upload on which the service itself fails: the limit on uploads is not finite or more than can be asked
for, or the upload is taken in and the intake or the analysis ends with a fault, or the result cannot be
sent. -/
inductive Fails (s : Service) (k : Clock) (fileName : String) (bytes : List UInt8) : Prop
  | limit {f : Fault} (h : Config.Boundless (s.config.get .maxUploadMb) f) : Fails s k fileName bytes
  | asked {limit : Int} (bounded : s.config.maxUploadBytes = .ok limit) (h : mostBytes ≤ limit) :
      Fails s k fileName bytes
  | intake {f : Fault} (admitted : s.Admits bytes)
      (h : (Intake.fromUploadBy s.reader s.config fileName bytes).1 = .error (.fault f)) : Fails s k fileName bytes
  | analysis {sources : List Source} {f : Fault} (admitted : s.Admits bytes)
      (taken : (Intake.fromUploadBy s.reader s.config fileName bytes).1 = .ok sources)
      (h : s.run k sources = .error (.fault f)) : Fails s k fileName bytes
  | answer {sources : List Source} {r : Result} (admitted : s.Admits bytes)
      (taken : (Intake.fromUploadBy s.reader s.config fileName bytes).1 = .ok sources)
      (returned : s.run k sources = .ok r) (h : ¬ IsServable r.toJson) : Fails s k fileName bytes

theorem fails_boundless {s : Service} (hc : s.config.broken? = .ok none) {f : Fault}
    (hlimit : s.config.maxUploadBytes = .error f) (k : Clock) (fileName : String) (bytes : List UInt8) :
    s.Fails k fileName bytes :=
  .limit ((Config.bytesOf_error hc (.tail _ (.head _))).1 hlimit)

/-- An upload that is taken in fails if and only if there is no answer to its run. -/
theorem fails_admitted {s : Service} {k : Clock} {fileName : String} {bytes : List UInt8} (h : s.Admits bytes)
    (hended : Unanswered (s.ended k fileName bytes)) : s.Fails k fileName bytes := by
  simp only [ended] at hended
  cases htaken : (Intake.fromUploadBy s.reader s.config fileName bytes).1 with
  | error e =>
    rw [htaken] at hended
    obtain ⟨f, hf⟩ | ⟨r, hr, -⟩ := hended
    · cases hf
      exact .intake h htaken
    · cases hr
  | ok sources =>
    rw [htaken] at hended
    obtain ⟨f, hf⟩ | ⟨r, hr, hservable⟩ := hended
    · exact .analysis h htaken hf
    · exact .answer h htaken hr hservable

/-- With a limit that can be asked for, an upload fails if it keeps to the limit and there is no answer. -/
theorem fails_bounded {s : Service} (hc : s.config.broken? = .ok none) {limit : Int}
    (hlimit : s.config.maxUploadBytes = .ok limit) (hreadable : limit < mostBytes) {k : Clock} {fileName : String}
    {bytes : List UInt8} :
    s.Fails k fileName bytes ↔ (bytes.length : Int) ≤ limit ∧ Unanswered (s.ended k fileName bytes) := by
  have hadmits : s.Admits bytes → (bytes.length : Int) ≤ limit := by
    rintro ⟨limit', hlimit', -, hfits⟩
    cases hlimit.symm.trans hlimit'
    exact hfits
  constructor
  · intro h
    cases h with
    | limit h =>
      have herror := (Config.bytesOf_error hc (.tail _ (.head _))).2 h
      cases hlimit.symm.trans herror
    | asked hlimit' h =>
      cases hlimit.symm.trans hlimit'
      omega
    | intake hadmitted h => exact ⟨hadmits hadmitted, .inl ⟨_, by rw [ended, h]⟩⟩
    | analysis hadmitted htaken h => exact ⟨hadmits hadmitted, .inl ⟨_, by rw [ended, htaken]; exact h⟩⟩
    | answer hadmitted htaken hreturned h =>
      exact ⟨hadmits hadmitted, .inr ⟨_, by rw [ended, htaken]; exact hreturned, h⟩⟩
  · rintro ⟨hfits, hended⟩
    exact fails_admitted ⟨limit, hlimit, hreadable, hfits⟩ hended

/-- The service answers an upload with one of five statuses, and with the last of them exactly when it
fails itself. -/
theorem receive_status {s : Service} (hc : s.config.broken? = .ok none) (k : Clock) (fileName : String)
    (bytes : List UInt8) :
    ((s.receive k fileName bytes).1.status = 500 ↔ s.Fails k fileName bytes) ∧
      (s.receive k fileName bytes).1.status ∈ [200, 400, 413, 504, 500] := by
  cases hlimit : s.config.maxUploadBytes with
  | error f =>
    have hfails := fails_boundless hc hlimit k fileName bytes
    simp [receive, hlimit, internalError, hfails]
  | ok limit =>
    by_cases hreadable : limit < mostBytes
    · rw [fails_bounded hc hlimit hreadable]
      by_cases hfits : (bytes.length : Int) ≤ limit
      · obtain ⟨hfault, hstatus⟩ := conclude_status fileName (s.ended k fileName bytes)
        rw [receive_within hlimit hreadable hfits, hfault]
        exact ⟨⟨fun h => ⟨hfits, h⟩, And.right⟩, hstatus⟩
      · have hlarge := Int.not_le.1 hfits
        have hasked : ¬ mostBytes < limit + 1 := by omega
        simp [receive, hlimit, hasked, hlarge, complaint, hfits]
    · have hfails : s.Fails k fileName bytes := .asked hlimit (Int.not_lt.1 hreadable)
      have hasked : mostBytes < limit + 1 := by omega
      simp [receive, hlimit, hasked, internalError, hfails]

end Service

/-! ## When uploads fail -/

/-- **When an upload ends with a fault.** Whatever the reader of archives, the configuration that obeys its rules
and has a language, the name and the bytes: the intake of an upload that is no archive never ends with a fault, and
that of an archive exactly when the archive cannot be opened or a member that is reached causes one. The fault is
of one of five kinds, or the reader raised it. The service answers with one of its four statuses unless the intake
or something around it ends with a fault. -/
theorem upload_faults_exact (r : Archive.Reader) {c : Config} (hc : c.broken? = .ok none) {l : Language}
    (hl : Intake.languageOf c = .ok l) (fileName : String) (bytes : List UInt8) :
    (∀ f, (Intake.fromUploadBy r c fileName bytes).1 = .error (.fault f) ↔
      Intake.isZipName (Intake.uploadName fileName) = true ∧
        Intake.Escapes r c l (String.ofList (Intake.uploadName fileName)) bytes f) ∧
    (∀ f, (Intake.fromUploadBy r c fileName bytes).1 = .error (.fault f) →
      f.kind ∈ Intake.ownKinds ∨ Archive.Raises r bytes f) ∧
    ∀ parser k, ((Service.mk c parser r).receive k fileName bytes).1.status ∈ [200, 400, 413, 504] ↔
      ¬ (Service.mk c parser r).Fails k fileName bytes := by
  refine ⟨fun f => Intake.fromUploadBy_fault hc hl, fun f h => ?_, fun parser k => ?_⟩
  · exact ((Intake.fromUploadBy_fault hc hl).1 h).2.kind_mem
  · obtain ⟨hfails, hstatus⟩ := Service.receive_status (s := ⟨c, parser, r⟩) hc k fileName bytes
    rw [← hfails]
    generalize ((Service.mk c parser r).receive k fileName bytes).1.status = status at hstatus
    simp only [List.mem_cons, List.not_mem_nil, or_false] at hstatus ⊢
    omega

/-- The kinds of faults in which the intake of an upload may end, if archives are read with some decoders. -/
theorem kind_of_upload_fault {k : Zip.Codecs} {kinds : List FaultKind} (hk : k.EndIn kinds) {c : Config}
    (hc : c.broken? = .ok none) {l : Language} (hl : Intake.languageOf c = .ok l) {fileName : String}
    {bytes : List UInt8} {f : Fault}
    (h : (Intake.fromUploadBy (Zip.membersWith k) c fileName bytes).1 = .error (.fault f)) :
    f.kind ∈ Intake.ownKinds ++ (Zip.contentFaults ++ kinds) := by
  rcases ((Intake.fromUploadBy_fault hc hl).1 h).2.kind_mem with hown | hraised
  · exact List.mem_append_left _ hown
  · exact List.mem_append_right _ (Zip.kind_of_raises hk hraised)

/-- An archive with one member, `A.java`, whose compressed content is one byte that begins no block. -/
def damagedStream : List UInt8 :=
  [80, 75, 3, 4, 20, 0, 0, 0, 8, 0, 0, 0, 0, 0, 0, 0, 0, 0, 1, 0, 0, 0, 1, 0, 0, 0, 6, 0, 0, 0,
    65, 46, 106, 97, 118, 97, 7,
    80, 75, 1, 2, 20, 0, 20, 0, 0, 0, 8, 0, 0, 0, 0, 0, 0, 0, 0, 0, 1, 0, 0, 0, 1, 0, 0, 0, 6, 0, 0, 0,
    0, 0, 0, 0, 0, 0, 0, 0, 0, 0, 0, 0, 0, 0, 65, 46, 106, 97, 118, 97,
    80, 75, 5, 6, 0, 0, 0, 0, 1, 0, 1, 0, 52, 0, 0, 0, 37, 0, 0, 0, 0, 0]

/-- The member of that archive. -/
def damagedMember : Archive.Member :=
  ⟨"A.java", 1, fun _ => Zip.read {} damagedStream.toArray ⟨"A.java".toList, 0, 8, 0, 1, 1, 0, 0⟩ 37⟩

theorem damagedStream_members : Zip.members damagedStream = .ok ([] ++ [damagedMember]) := by
  with_unfolding_all rfl

/-- The standard patterns do not exclude the member. -/
theorem standard_keeps_java :
    Intake.isExcluded ⟨0, ["A.java".toList]⟩ (Config.standard.get .excludePatterns) = .ok false := by
  have hsegment : Glob.matchesSegment (.ofString "*.generated.*") (.ofString "A.java") = false := by
    have hpieces : Glob.pieces 14 (.ofString "*.generated.*") =
        .anyRun :: ((Text.ofString ".generated.").map .char ++ [.anyRun]) := by decide
    have hliterals : (Text.ofString ".generated.").map Glob.Piece.char =
        .char 0x2E :: .char 0x67 :: (Text.ofString "enerated.").map .char := by decide
    have hname : Text.ofString "A.java" = [0x41, 0x2E, 0x6A, 0x61, 0x76, 0x61] := by decide
    have hlength : (Text.ofString "*.generated.*").length.succ = 14 := by decide
    rw [Glob.matchesSegment, hlength, hpieces, hliterals, hname]
    -- the only dot of the name has no `g` behind it
    simp [Glob.covers, Glob.Piece.accepts]
  have hlast : Intake.isMatch ⟨0, ["A.java".toList]⟩ (.str "*.generated.*") = .ok false := by
    calc Intake.isMatch ⟨0, ["A.java".toList]⟩ (.str "*.generated.*")
        = .ok (Glob.matchesSegment (.ofString "*.generated.*") (.ofString "A.java") && true) := rfl
      _ = .ok false := by rw [hsegment, Bool.false_and]
  -- all other patterns have more segments than the path
  calc Intake.isExcluded ⟨0, ["A.java".toList]⟩ (Config.standard.get .excludePatterns)
      = Intake.anyMatch ⟨0, ["A.java".toList]⟩ [.str "*.generated.*"] := rfl
    _ = .ok false := by rw [Intake.anyMatch, hlast]; rfl

/-- With all settings as they are when nothing is said, an archive with a damaged stream ends with a
fault. -/
theorem upload_fault_of_damaged_stream :
    Config.standard.broken? = .ok none ∧ Intake.languageOf Config.standard = .ok .java ∧
      (Intake.fromUpload .standard "a.zip" damagedStream).1 =
        .error (.fault ⟨.stream, "Error -3 while decompressing data: invalid block type"⟩) := by
  have haccepted : Intake.accepts .standard .java ⟨0, ["A.java".toList]⟩ 1 = .ok (true, []) := by
    rw [Intake.accepts, standard_keeps_java]
    rfl
  have hcontent : damagedMember.content () =
      .error (.beyond ⟨.stream, "Error -3 while decompressing data: invalid block type"⟩) := by
    with_unfolding_all rfl
  have hbounded : Config.standard.maxTotalBytes = .ok 209715200 := rfl
  refine ⟨rfl, rfl, (Intake.fromUploadBy_fault rfl rfl).2 ⟨by decide +kernel, ?_⟩⟩
  exact .member damagedStream_members .done
    (.content (by decide +kernel) rfl ⟨[], haccepted⟩ rfl hbounded (by decide) hcontent)

/-- A configuration whose only pattern is empty. -/
def emptyPattern : Config := ⟨fun f => match f with
  | .excludePatterns => .list [.str ""]
  | f => f.default⟩

/-- An empty pattern, whatever the content of the member. -/
theorem upload_faults_exact_pattern :
    (Intake.fromUpload emptyPattern "a.zip" damagedStream).1 = .error (.fault ⟨.value, "empty pattern"⟩) ∧
      ∀ parser k,
        ((Service.mk emptyPattern parser Zip.members).receive k "a.zip" damagedStream).1.status ∉
          [200, 400, 413, 504] := by
  have hlanguage : Intake.languageOf emptyPattern = .ok .java := rfl
  obtain ⟨hintake, -, hservice⟩ := upload_faults_exact Zip.members rfl hlanguage "a.zip" damagedStream
  have hlisted : Intake.patternsOf (emptyPattern.get .excludePatterns) = .ok ([] ++ [.str ""]) := rfl
  have hundecided : Intake.Undecided emptyPattern .java ⟨0, ["A.java".toList]⟩ ⟨.value, "empty pattern"⟩ :=
    .pattern ⟨by decide +kernel, by decide +kernel, by decide +kernel⟩ (.pattern hlisted (by simp) (.empty rfl))
  have hfault := (hintake ⟨.value, "empty pattern"⟩).2
    ⟨by decide +kernel, .member damagedStream_members .done (.selection (by decide +kernel) rfl hundecided)⟩
  refine ⟨hfault, fun parser k => ?_⟩
  have hbounded : emptyPattern.maxUploadBytes = .ok 52428800 := rfl
  rw [hservice]
  exact not_not_intro (.intake ⟨_, hbounded, by decide, by decide⟩ hfault)

end Maintainability
