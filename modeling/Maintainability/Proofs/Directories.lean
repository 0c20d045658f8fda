/-
Directories and archives. The files of a directory are taken in the order of their segments, whatever
the order in which the file system lists them (`filesUnder_eq`). A run over them is a gathering like
one over members (`files_eq_gather`), and a file gives the same source in an archive that stores it
under the text of its path (`RegularFile.usable?_member`). So a directory and an archive of the same
files give the same sources, each run refusing none of them (`fromDirectory_eq`, `fromMembers_eq`).
-/
import Maintainability.Proofs.Ordering
import Maintainability.Proofs.Straying

namespace Maintainability

namespace Path

/-- Segments are compared as lists of lists of characters. -/
theorem le_iff {a b : List (List Char)} : le a b = true ↔ a ≤ b := by
  induction a generalizing b with
  | nil => simp [le, ← not_lt]
  | cons s ss ih =>
    cases b with
    | nil => simp [le, ← not_lt]
    | cons t ts =>
      rw [le, ← not_lt, List.cons_lt_cons_iff]
      by_cases h : s = t
      · simp [h, ih]
      · rw [if_neg h, decide_eq_true_iff, String.lt_iff, String.toList_ofList, String.toList_ofList]
        constructor
        · rintro hlt (hgt | ⟨heq, -⟩)
          · exact lt_asymm hlt hgt
          · exact h heq.symm
        · exact fun hnot => lt_of_le_of_ne (not_lt.1 fun hgt => hnot (.inl hgt)) h

end Path

namespace Intake

/-! ## Files of a directory -/

/-- The source that a file gives on its own: its size is known, it is accepted, and its content can be
read and decoded. -/
def Found.source? (c : Config) (l : Language) (f : Found) : Option Source :=
  match f.node with
  | .file bytes true true =>
    if isAccepted c l ⟨0, f.segments⟩ bytes.length then decoded? ⟨0, f.segments⟩ bytes else none
  | _ => none

/-- What becomes of a file. -/
def fileVerdict (c : Config) (l : Language) (taken _ : Nat) (f : Found) : Verdict :=
  match f.node with
  | .file bytes readable sized =>
    if sized = false then .pass
    else
      match accepts c l ⟨0, f.segments⟩ bytes.length with
      | .error e => .fail (.fault e)
      | .ok (false, _) => .pass
      | .ok (true, _) =>
        if isFull c taken then .stop
        else if readable = false then .pass
        else .take (decoded? ⟨0, f.segments⟩ bytes)
  | _ => .pass

section

variable {c : Config} {l : Language} {directory : String}

theorem files_eq_gather (found : List Found) : ∀ {taken : List Source} {total : Nat},
    (files c l directory taken found).1 = gather (fileVerdict c l) (fun _ => 0) taken total found := by
  induction found with
  | nil =>
    intro taken total
    rfl
  | cons f found ih =>
    intro taken total
    rw [files, gather, fileVerdict]
    cases f.node with
    | directory => exact ih
    | link target => exact ih
    | file bytes readable sized =>
      cases sized with
      | false => exact ih
      | true =>
        simp only [Bool.not_true, Bool.true_eq_false, Bool.false_eq_true, if_false]
        cases accepts c l ⟨0, f.segments⟩ bytes.length with
        | error e => rfl
        | ok verdict =>
          obtain ⟨b, notes⟩ := verdict
          cases b with
          | false => exact ih
          | true =>
            by_cases hfull : isFull c taken.length = true
            · simp only [hfull, if_true]
            · cases readable with
              | false =>
                simp only [hfull]
                exact ih
              | true =>
                simp only [hfull]
                exact ih

theorem fileVerdict_justified (taken total : Nat) (f : Found) :
    Justified c taken (f.source? c l) (fileVerdict c l taken total f) := by
  rw [fileVerdict, Found.source?]
  cases f.node with
  | directory => exact .pass rfl
  | link target => exact .pass rfl
  | file bytes readable sized =>
    cases sized with
    | false => exact .pass (by cases readable <;> rfl)
    | true =>
      simp only [Bool.true_eq_false, if_false]
      cases haccepts : accepts c l ⟨0, f.segments⟩ bytes.length with
      | error e => exact .fail _
      | ok verdict =>
        obtain ⟨b, notes⟩ := verdict
        have haccepted : isAccepted c l ⟨0, f.segments⟩ bytes.length = b := by rw [isAccepted, haccepts]
        cases b with
        | false => exact .pass (by cases readable <;> simp [haccepted])
        | true =>
          by_cases hfull : isFull c taken = true
          · simp only [hfull, if_true]
            exact .stop hfull
          simp only [hfull, Bool.false_eq_true, if_false]
          cases readable with
          | false => exact .pass rfl
          | true =>
            simp only [haccepted, Bool.true_eq_false, if_true, if_false]
            exact .take (by simpa using hfull)

/-- What is found in a directory, in order. -/
def foundIn (w : Workspace) (target : Path) (place : Place) : List Found :=
  (w.filesUnder place).map fun (segments, node) => ⟨segments, (target.under ⟨0, segments⟩).text, node⟩

theorem fromDirectory_ok {w : Workspace} {target : Path} {place : Place} {sources : List Source} :
    (fromDirectory c l w target place).1 = .ok sources ↔
      gather (fileVerdict c l) (fun _ => 0) [] 0 (foundIn w target place) = .ok sources := by
  have hgather := @files_eq_gather c l target.text (foundIn w target place) [] 0
  rw [← hgather, fromDirectory, foundIn]
  dsimp only
  split
  · next h => simp [h]
  · rfl

/-- The sources of a directory are those that its files give one by one, up to the number allowed. -/
theorem fromDirectory_sources {w : Workspace} {target : Path} {place : Place} {sources : List Source}
    (h : (fromDirectory c l w target place).1 = .ok sources) :
    sources = upTo (capacity c) ((foundIn w target place).filterMap (Found.source? c l)) :=
  gather_sources fileVerdict_justified _ (fun _ _ => Nat.zero_le _) (fromDirectory_ok.1 h)

end

/-! ## Selection without faults -/

/-- Patterns that any path can be compared with: texts that name a root or a segment. -/
def Comparable (patterns : Value) : Prop :=
  ∃ vs, patternsOf patterns = .ok vs ∧ ∀ v ∈ vs, ∃ t, v = .text t ∧ (Glob.Pattern.ofText t).isEmpty = false

theorem isExcluded_of_comparable {patterns : Value} (h : Comparable patterns) (p : Path) (f : Fault) :
    isExcluded p patterns ≠ .error f := by
  obtain ⟨vs, hvs, htexts⟩ := h
  intro herror
  cases isExcluded_error.1 herror with
  | listing hlisting =>
    rw [hvs] at hlisting
    cases hlisting
  | @pattern before after v hlisted _ hv =>
    cases hvs.symm.trans hlisted
    obtain ⟨t, rfl, hparts⟩ := htexts v (by simp)
    cases hv with
    | empty hempty => cases hparts.symm.trans hempty
    | falsy hnot _ => exact hnot t rfl
    | misused h => exact h.isFalsy.2 t rfl

theorem accepts_of_comparable {c : Config} {limit : Int} (hlimit : c.maxFileBytes = .ok limit)
    (hpatterns : Comparable (c.get .excludePatterns)) (l : Language) (p : Path) (size : Int) (f : Fault) :
    accepts c l p size ≠ .error f := by
  intro h
  simp only [accepts, hlimit] at h
  split at h
  · cases h
  split at h
  · cases h
  split at h
  · cases h
  split at h
  · next e hexcluded => exact isExcluded_of_comparable hpatterns p e hexcluded
  · cases h
  · split at h <;> cases h

/-! ## Regular files -/

/-- A file that can be read, by its segments from the directory that holds it. Its names can be written
in an archive, and the first one does not look like a drive. -/
structure RegularFile where
  segments : List (List Char)
  bytes : List UInt8
  nonempty : segments ≠ []
  names : ∀ s ∈ segments, FileName s
  noDrive : ∀ s ∈ segments.head?, ':' ∉ s

namespace RegularFile

/-- The file in a directory. -/
def node (f : RegularFile) : Node := .file f.bytes true true

/-- The file in an archive. -/
def member (f : RegularFile) : Archive.Member := stored (String.ofList (Path.joined f.segments)) f.bytes

/-- The source that a file gives if it is accepted and can be decoded. -/
def source? (c : Config) (l : Language) (f : RegularFile) : Option Source :=
  if isAccepted c l ⟨0, f.segments⟩ f.bytes.length then decoded? ⟨0, f.segments⟩ f.bytes else none

theorem memberPath_member (f : RegularFile) : memberPath f.member.name = .ok ⟨0, f.segments⟩ :=
  memberPath_joined f.nonempty f.names f.noDrive

theorem isDirectory_member (f : RegularFile) : f.member.isDirectory = false := by
  have hlast := Path.joined_getLast? f.nonempty f.names
  rw [member, stored, Archive.Member.isDirectory, String.toList_ofList]
  simpa using hlast

/-- A file gives the same source in an archive. -/
theorem usable?_member (c : Config) (l : Language) (f : RegularFile) : usable? c l f.member = f.source? c l := by
  have hcontent : f.member.content () = .ok f.bytes := rfl
  have hsize : f.member.size = f.bytes.length := rfl
  simp only [usable?, f.isDirectory_member, f.memberPath_member, hcontent, hsize, source?, Bool.false_eq_true, if_false]

end RegularFile

/-- The size of some files together. -/
def totalSize (fs : List RegularFile) : Nat := total (fs.map (·.bytes.length))

/-- Files in the order of their segments. -/
def inOrder (fs : List RegularFile) : List RegularFile := fs.mergeSort fun f g => Path.le f.segments g.segments

theorem inOrder_perm (fs : List RegularFile) : (inOrder fs).Perm fs := List.mergeSort_perm _ _

theorem inOrder_strict {fs : List RegularFile} (hdistinct : (fs.map RegularFile.segments).Nodup) :
    (inOrder fs).Pairwise fun f g => f.segments < g.segments := by
  have hsorts : SortsBy (fun f g : RegularFile => Path.le f.segments g.segments) RegularFile.segments :=
    fun _ _ => Path.le_iff
  exact hsorts.strict hdistinct

/-- A workspace that holds, of all files below a place, just these. They are listed in any order, among
directories, links and what stands elsewhere. -/
def Holds (w : Workspace) (place : Place) (fs : List RegularFile) : Prop :=
  ∃ others, w.nodes.Perm ((fs.map fun f => (place ++ f.segments, f.node)) ++ others) ∧
    ∀ p bytes readable sized, (p, Node.file bytes readable sized) ∈ others → ¬ place <+: p

/-- A file below a place, by its segments from there. -/
def below? (place : Place) : Place × Node → Option (List (List Char) × Node)
  | (p, .file bytes readable sized) =>
    if place.isPrefixOf p then some (p.drop place.length, .file bytes readable sized) else none
  | _ => none

theorem below?_node (place : Place) (f : RegularFile) : below? place (place ++ f.segments, f.node) = some (f.segments, f.node) := by
  have hprefix : place.isPrefixOf (place ++ f.segments) = true :=
    List.isPrefixOf_iff_prefix.2 (List.prefix_append _ _)
  rw [RegularFile.node, below?, if_pos hprefix, List.drop_left]

theorem filesUnder_below (w : Workspace) (place : Place) :
    w.filesUnder place = (w.nodes.filterMap (below? place)).mergeSort fun a b => Path.le a.1 b.1 := by
  rw [Workspace.filesUnder]
  congr 2
  funext ⟨p, node⟩
  cases node <;> rfl

theorem Holds.perm {w : Workspace} {place : Place} {fs : List RegularFile} (h : Holds w place fs) :
    (w.nodes.filterMap (below? place)).Perm (fs.map fun f => (f.segments, f.node)) := by
  obtain ⟨others, hnodes, hothers⟩ := h
  have hnone : others.filterMap (below? place) = [] := by
    rw [List.filterMap_eq_nil_iff]
    rintro ⟨p, node⟩ hmem
    cases node with
    | directory => rfl
    | link target => rfl
    | file bytes readable sized =>
      have houtside := hothers p bytes readable sized hmem
      rw [below?, if_neg (by simpa using houtside)]
  have hfiles : (fs.map fun f => (place ++ f.segments, f.node)).filterMap (below? place) =
      fs.map fun f => (f.segments, f.node) := by
    rw [List.filterMap_map, ← List.filterMap_eq_map]
    exact List.filterMap_congr fun f _ => below?_node place f
  have hall := hnodes.filterMap (below? place)
  rwa [List.filterMap_append, hnone, hfiles, List.append_nil] at hall

/-- The files of a directory are found in order, however they are listed. -/
theorem filesUnder_eq {w : Workspace} {place : Place} {fs : List RegularFile} (h : Holds w place fs)
    (hdistinct : (fs.map RegularFile.segments).Nodup) :
    w.filesUnder place = (inOrder fs).map fun f => (f.segments, f.node) := by
  have hsorts : SortsBy (fun a b : List (List Char) × Node => Path.le a.1 b.1) Prod.fst := fun _ _ => Path.le_iff
  have hkeys : ((w.nodes.filterMap (below? place)).map Prod.fst).Nodup := by
    rw [(h.perm.map Prod.fst).nodup_iff, List.map_map]
    exact hdistinct
  have hstrict : ((inOrder fs).map fun f => (f.segments, f.node)).Pairwise fun a b => a.1 < b.1 :=
    List.pairwise_map.2 (inOrder_strict hdistinct)
  rw [filesUnder_below]
  refine eq_of_strict (hsorts.strict hkeys) hstrict fun x => ?_
  rw [List.mem_mergeSort, h.perm.mem_iff, List.mem_map, List.mem_map]
  exact exists_congr fun f => and_congr_left fun _ => (inOrder_perm fs).mem_iff.symm

/-! ## Directories and archives -/

section

variable {c : Config} {l : Language} {fs : List RegularFile}

theorem fileVerdict_ne_fail {fileLimit : Int} (hfile : c.maxFileBytes = .ok fileLimit)
    (hpatterns : Comparable (c.get .excludePatterns)) (taken total : Nat) (f : Found) (why : Failure) :
    fileVerdict c l taken total f ≠ .fail why := by
  intro hfail
  rw [fileVerdict] at hfail
  split at hfail
  · split at hfail
    · cases hfail
    split at hfail
    · next e haccepts => exact accepts_of_comparable hfile hpatterns _ _ _ e haccepts
    · cases hfail
    · split at hfail
      · cases hfail
      · split at hfail <;> cases hfail
  · cases hfail

theorem fromDirectory_eq {fileLimit : Int} (hfile : c.maxFileBytes = .ok fileLimit)
    (hpatterns : Comparable (c.get .excludePatterns)) (hdistinct : (fs.map RegularFile.segments).Nodup)
    {w : Workspace} {place : Place} (h : Holds w place fs) (target : Path) :
    (fromDirectory c l w target place).1 =
      .ok (upTo (capacity c) ((inOrder fs).filterMap (RegularFile.source? c l))) := by
  -- nothing is added up over the files of a directory
  have hnothing : ((0 + total ((foundIn w target place).map fun _ => 0) : Nat) : Int) ≤ 0 := by
    induction foundIn w target place with
    | nil => exact Int.le_refl 0
    | cons f found ih => simpa using ih
  obtain ⟨sources, hok⟩ := @gather_ok _ _ _ _ (foundIn w target place) [] _ hnothing fun f _ taken read _ =>
    fileVerdict_ne_fail (l := l) hfile hpatterns taken read f
  have hdirectory := fromDirectory_ok.2 hok
  have hgiven : (foundIn w target place).filterMap (Found.source? c l) =
      (inOrder fs).filterMap (RegularFile.source? c l) := by
    rw [foundIn, filesUnder_eq h hdistinct, List.map_map, List.filterMap_map]
    rfl
  rw [hdirectory, fromDirectory_sources hdirectory, hgiven]

theorem memberVerdict_ne_fail {fileLimit totalLimit : Int} (hfile : c.maxFileBytes = .ok fileLimit)
    (htotal : c.maxTotalBytes = .ok totalLimit) (hpatterns : Comparable (c.get .excludePatterns)) {archive : String}
    {taken total : Nat} {f : RegularFile} (hfits : ((total + f.member.size : Nat) : Int) ≤ totalLimit) (why : Failure) :
    memberVerdict c l archive taken total f.member ≠ .fail why := by
  intro hfail
  rw [memberVerdict] at hfail
  split at hfail
  · cases hfail
  · cases hfail
  · next hrefuse =>
    have hgrounds := admission_grounds c l archive taken total f.member
    rw [hrefuse] at hgrounds
    cases hgrounds with
    | escaping _ hpath => simp [f.memberPath_member] at hpath
    | undecided _ _ haccepts => exact accepts_of_comparable hfile hpatterns _ _ _ _ haccepts
    | boundless _ _ hboundless => simp [htotal] at hboundless
    | large _ _ hbounded hlarge =>
      cases htotal.symm.trans hbounded
      omega
  · split at hfail
    · next hdamage => cases hdamage
    · cases hfail

theorem fromMembers_eq {fileLimit totalLimit : Int} (hfile : c.maxFileBytes = .ok fileLimit)
    (htotal : c.maxTotalBytes = .ok totalLimit) (hpatterns : Comparable (c.get .excludePatterns))
    (hfits : (totalSize fs : Int) ≤ totalLimit) (archive : String) :
    (fromMembers c l archive (fs.map RegularFile.member)).1 =
      .ok (upTo (capacity c) (fs.filterMap (RegularFile.source? c l))) := by
  have hsizes : (fs.map RegularFile.member).map Archive.Member.size = fs.map (·.bytes.length) := List.map_map
  have hbudget : ((0 + total ((fs.map RegularFile.member).map Archive.Member.size) : Nat) : Int) ≤ totalLimit := by
    rw [hsizes, Nat.zero_add]
    exact hfits
  have hunfailing : ∀ m ∈ fs.map RegularFile.member, ∀ taken read, ((read + m.size : Nat) : Int) ≤ totalLimit →
      ∀ why, memberVerdict c l archive taken read m ≠ .fail why := by
    intro m hm taken read hroom why
    obtain ⟨f, -, rfl⟩ := List.mem_map.1 hm
    exact memberVerdict_ne_fail hfile htotal hpatterns hroom why
  obtain ⟨sources, hok⟩ := @gather_ok _ _ _ _ (fs.map RegularFile.member) [] _ hbudget hunfailing
  have hmembers : (fromMembers c l archive (fs.map RegularFile.member)).1 = .ok sources := by
    rw [fromMembers_ok, members_eq_gather, hok]
  have hgiven : (fs.map RegularFile.member).filterMap (usable? c l) = fs.filterMap (RegularFile.source? c l) := by
    rw [List.filterMap_map]
    exact List.filterMap_congr fun f _ => f.usable?_member c l
  rw [hmembers, fromMembers_sources hmembers, hgiven]

end

/-- **A directory and an archive of the same files give the same sources.** Whatever the files, of which
no two have the same segments, and whatever the configuration, as long as its limits are finite and its
patterns can be compared: the files have one order by their segments. However a workspace lists them, a
directory that holds them gives the sources of those that are accepted and decodable in that order, as
many as are allowed. An archive that stores them in that order gives the same, if they are not too large
together. -/
theorem directory_eq_archive (c : Config) (l : Language) (fs : List RegularFile) {fileLimit totalLimit : Int}
    (hfile : c.maxFileBytes = .ok fileLimit) (htotal : c.maxTotalBytes = .ok totalLimit)
    (hpatterns : Comparable (c.get .excludePatterns)) (hdistinct : (fs.map RegularFile.segments).Nodup) :
    ((inOrder fs).Perm fs ∧ (inOrder fs).Pairwise fun f g => f.segments < g.segments) ∧
    (∀ w place target, Holds w place fs → (fromDirectory c l w target place).1 =
      .ok (upTo (capacity c) ((inOrder fs).filterMap (RegularFile.source? c l)))) ∧
    ((totalSize fs : Int) ≤ totalLimit → ∀ archive,
      (fromMembers c l archive ((inOrder fs).map RegularFile.member)).1 =
        .ok (upTo (capacity c) ((inOrder fs).filterMap (RegularFile.source? c l)))) := by
  refine ⟨⟨inOrder_perm fs, inOrder_strict hdistinct⟩, ?_, ?_⟩
  · intro w place target h
    exact fromDirectory_eq hfile hpatterns hdistinct h target
  · intro hfits archive
    have hsize : totalSize (inOrder fs) = totalSize fs := ((inOrder_perm fs).map _).sum_nat
    exact fromMembers_eq hfile htotal hpatterns (hsize ▸ hfits) archive

/-- The file `a/b.java`. -/
def inside : RegularFile where
  segments := ["a".toList, "b.java".toList]
  bytes := [0x62]
  nonempty := by decide
  names := by
    intro s hs
    rcases hs with _ | ⟨_, _ | ⟨_, ⟨⟩⟩⟩ <;> constructor <;> decide
  noDrive := by decide

/-- The file `a-b.java`. -/
def beside : RegularFile where
  segments := ["a-b.java".toList]
  bytes := [0x61]
  nonempty := by decide
  names := by
    intro s hs
    rcases hs with _ | ⟨_, ⟨⟩⟩
    constructor <;> decide
  noDrive := by decide

/-- By their texts, `a-b.java` comes before `a/b.java`; by their segments, `a/b.java` is the first, and the
one source that is allowed. -/
theorem directory_eq_archive_segments :
    let w : Workspace := { nodes := [(["a-b.java".toList], beside.node), (["a".toList], .directory),
      (["a".toList, "b.java".toList], inside.node), (["c.java".toList], .link ⟨0, ["a-b.java".toList]⟩)] }
    (fromDirectory oneSource .java w ⟨0, []⟩ []).1 = .ok [⟨"a/b.java", .ofString "b"⟩] ∧
      (fromMembers oneSource .java "a.zip" [inside.member, beside.member]).1 = .ok [⟨"a/b.java", .ofString "b"⟩] := by
  intro w
  have hfile : oneSource.maxFileBytes = .ok 10485760 := rfl
  have htotal : oneSource.maxTotalBytes = .ok 209715200 := rfl
  have hpatterns : Comparable (oneSource.get .excludePatterns) := ⟨[], rfl, by simp⟩
  obtain ⟨⟨hperm, hstrict⟩, hdirectory, harchive⟩ :=
    directory_eq_archive oneSource .java [inside, beside] hfile htotal hpatterns (by decide)
  have horder : inOrder [inside, beside] = [inside, beside] :=
    eq_of_strict hstrict (List.pairwise_pair.2 (by decide)) fun _ => hperm.mem_iff
  have hholds : Holds w [] [inside, beside] := by
    refine ⟨[(["a".toList], .directory), (["c.java".toList], .link ⟨0, ["a-b.java".toList]⟩)], ?_, by simp⟩
    exact (List.Perm.cons _ (.swap _ _ _)).trans (.swap _ _ _)
  have hsources : [inside, beside].filterMap (RegularFile.source? oneSource .java) =
      [⟨"a/b.java", .ofString "b"⟩, ⟨"a-b.java", .ofString "a"⟩] := by
    with_unfolding_all rfl
  have hallowed : capacity oneSource = some 1 := rfl
  rw [horder, hsources, hallowed] at hdirectory harchive
  exact ⟨hdirectory w [] ⟨0, []⟩ hholds, harchive (by decide) "a.zip"⟩

end Intake

end Maintainability
