/-
The faults of reading an archive. What is wrong with an archive is either damage, of which the
reader says so, or a fault, which it raises (`Archive.Raises`). The kinds of faults are few: the
directory asks for a version that is not there or holds a name that is not UTF-8 (`members_faults`);
the content of a member is also encrypted, packed in a way that is not there, a damaged stream, or
has its header where no file has a place, or a decoder of the build fails on it (`read_faults`).
-/
import Maintainability.Archive.Zip

namespace Maintainability

namespace Archive

/-- Every fault in which a reading may end is of one of some kinds. -/
def Faults {α : Type} (kinds : List FaultKind) (x : Except Damage α) : Prop :=
  ∀ f, x = .error (.beyond f) → f.kind ∈ kinds

namespace Faults

variable {α β : Type} {kinds : List FaultKind}

theorem ok (a : α) : Faults kinds (.ok a) := nofun

theorem broken (why : String) : Faults kinds (.error (.broken why) : Except Damage α) := nofun

theorem beyond {f : Fault} (h : f.kind ∈ kinds) : Faults kinds (.error (.beyond f) : Except Damage α) := by
  rintro _ ⟨⟩
  exact h

theorem bind {x : Except Damage α} {next : α → Except Damage β} (hx : Faults kinds x)
    (hnext : ∀ a, Faults kinds (next a)) : Faults kinds (x >>= next) := by
  cases x with
  | error d =>
    rintro f ⟨⟩
    exact hx f rfl
  | ok a => exact hnext a

theorem ite {p : Prop} [Decidable p] {x y : Except Damage α} (hx : Faults kinds x) (hy : Faults kinds y) :
    Faults kinds (if p then x else y) := by
  split
  · exact hx
  · exact hy

theorem mono {kinds' : List FaultKind} {x : Except Damage α} (h : Faults kinds x) (hk : kinds ⊆ kinds') :
    Faults kinds' x := fun f hf => hk (h f hf)

end Faults

/-- The faults of a reader: of opening an archive, or of the content of one of its members. -/
inductive Raises (r : Reader) (bytes : List UInt8) : Fault → Prop
  | opening {f : Fault} (h : r bytes = .error (.beyond f)) : Raises r bytes f
  | content {f : Fault} {ms : List Member} {m : Member} (listed : r bytes = .ok ms) (mem : m ∈ ms)
      (h : m.content () = .error (.beyond f)) : Raises r bytes f

end Archive

namespace Zip

open Archive (Faults)

/-- The kinds of faults of a directory. -/
def directoryFaults : List FaultKind := [.decoding, .unsupported]

/-- The kinds of faults of a content, those of the decoders of the build apart. -/
def contentFaults : List FaultKind := [.value, .unsupported, .decoding, .runtime, .stream, .overflow]

/-- The decoders of a build end in faults of some kinds only. -/
structure Codecs.EndIn (k : Codecs) (kinds : List FaultKind) : Prop where
  bzip2 : ∀ decode, k.bzip2 = some decode → ∀ packed, Faults kinds (decode packed)
  lzma : ∀ decode, k.lzma = some decode → ∀ packed, Faults kinds (decode packed)

variable {k : Codecs} {kinds : List FaultKind}

theorem decodeName_faults (flags : Nat) (bytes : List UInt8) : Faults [.decoding] (decodeName flags bytes) := by
  rw [decodeName]
  refine .ite ?_ (.ok _)
  split
  · exact .ok _
  · exact .beyond (.head _)

theorem endRecord_faults (data : Array UInt8) : Faults [] (endRecord data) := by
  rw [endRecord]
  split
  · exact .broken _
  · exact .ite (.ok _) (.ite (.broken _) (.ite (.ok _) (.ok _)))

theorem large?_faults (field : String) (data : List UInt8) : Faults [] (large? field data) :=
  .ite (.broken _) (.ok _)

theorem enlarge_faults (e : Entry) (data : List UInt8) : Faults [] (e.enlarge data) := by
  rw [Entry.enlarge]
  -- each of the three numbers is read or kept, and in both cases the others follow
  refine .ite (.bind (large?_faults _ _) fun _ => ?_) (.bind (.ok _) fun _ => ?_)
  all_goals refine .ite (.bind (large?_faults _ _) fun _ => ?_) (.bind (.ok _) fun _ => ?_)
  all_goals exact .ite (.bind (large?_faults _ _) fun _ => .ok _) (.ok _)

theorem extend_faults (fuel : Nat) (e : Entry) (extra : List UInt8) : Faults [] (Entry.extend fuel e extra) := by
  induction fuel generalizing e extra with
  | zero => exact .ok _
  | succ fuel ih =>
    rw [Entry.extend]
    refine .ite (.ok _) (.ite (.broken _) (.ite ?_ ?_))
    · exact .bind (enlarge_faults _ _) fun _ => ih _ _
    · exact ih _ _

theorem entries_faults (directory : Array UInt8) (size : Nat) (shift : Int) (fuel total : Nat) :
    Faults directoryFaults (entries directory size shift fuel total) := by
  induction fuel generalizing total with
  | zero => exact .ok _
  | succ fuel ih =>
    rw [entries]
    refine .ite (.ok _) (.ite (.broken _) (.ite (.broken _) ?_))
    refine .bind ((decodeName_faults _ _).mono (by decide)) fun _ => .ite (.beyond (.tail _ (.head _))) ?_
    exact .bind ((extend_faults _ _ _).mono (List.nil_subset _)) fun _ => .bind (ih _) fun _ => .ok _

/-- The faults of the directory of an archive. -/
theorem members_faults (k : Codecs) (bytes : List UInt8) : Faults directoryFaults (membersWith k bytes) := by
  rw [membersWith]
  refine .bind ((endRecord_faults _).mono (List.nil_subset _)) fun _ => .ite (.broken _) ?_
  exact .bind (entries_faults _ _ _ _ _) fun _ => .ok _

theorem contentStart_faults (data : Array UInt8) (e : Entry) : Faults contentFaults (contentStart data e) := by
  have hunsupported : FaultKind.unsupported ∈ contentFaults := .tail _ (.head _)
  have hoverflow : FaultKind.overflow ∈ contentFaults := by decide
  rw [contentStart]
  refine .ite (.beyond hoverflow) (.ite (.beyond (.head _)) (.ite (.broken _) (.ite (.broken _) ?_)))
  refine .ite (.beyond hunsupported) (.ite (.beyond hunsupported) ?_)
  exact .bind ((decodeName_faults _ _).mono (by decide)) fun _ => .ite (.broken _) (.ok _)

theorem decodeBy_faults {decoder : Option Decoder}
    (h : ∀ decode, decoder = some decode → ∀ packed, Faults kinds (decode packed)) (name : String)
    (packed : List UInt8) : Faults (contentFaults ++ kinds) (decodeBy decoder name packed) := by
  have hruntime : FaultKind.runtime ∈ contentFaults ++ kinds := List.mem_append_left _ (by decide)
  cases decoder with
  | none => exact .beyond hruntime
  | some decode => exact (h decode rfl packed).mono (List.subset_append_right _ _)

theorem unpack_faults (hk : k.EndIn kinds) (e : Entry) (packed : List UInt8) :
    Faults (contentFaults ++ kinds) (unpack k e packed) := by
  have hstream : FaultKind.stream ∈ contentFaults ++ kinds := List.mem_append_left _ (by decide)
  have hunsupported : FaultKind.unsupported ∈ contentFaults ++ kinds := List.mem_append_left _ (by decide)
  rw [unpack]
  refine .ite (.ok _) (.ite ?_ (.ite (decodeBy_faults hk.bzip2 _ _) (.ite (decodeBy_faults hk.lzma _ _)
    (.beyond hunsupported))))
  split
  · exact .ok _
  · exact .beyond hstream

/-- The faults of the content of a member. -/
theorem read_faults (hk : k.EndIn kinds) (data : Array UInt8) (e : Entry) (limit : Int) :
    Faults (contentFaults ++ kinds) (read k data e limit) := by
  have hruntime : FaultKind.runtime ∈ contentFaults ++ kinds := List.mem_append_left _ (by decide)
  rw [read]
  refine .bind ((contentStart_faults data e).mono (List.subset_append_left _ _)) fun _ =>
    .ite (.broken _) (.ite (.beyond hruntime) ?_)
  exact .bind (unpack_faults hk _ _) fun _ => .ite (.ok _) (.broken _)

/-- The content of a member is the content of an entry. -/
theorem content_faults (hk : k.EndIn kinds) {bytes : List UInt8} {ms : List Archive.Member}
    (h : membersWith k bytes = .ok ms) {m : Archive.Member} (hm : m ∈ ms) :
    Faults (contentFaults ++ kinds) (m.content ()) := by
  simp only [membersWith, bind, Except.bind] at h
  split at h
  · cases h
  next record _ =>
  generalize (if record.isLarge = true then largeEndSize + locatorSize else 0) = tail at h
  split at h
  · cases h
  split at h
  · cases h
  · cases h
    obtain ⟨⟨e, limit⟩, -, rfl⟩ := List.mem_map.1 hm
    exact read_faults hk _ _ _

/-- What reading an archive raises is of few kinds, and of those of the decoders. -/
theorem kind_of_raises (hk : k.EndIn kinds) {bytes : List UInt8} {f : Fault}
    (h : Archive.Raises (membersWith k) bytes f) : f.kind ∈ contentFaults ++ kinds := by
  cases h with
  | opening h =>
    have hdirectory : directoryFaults ⊆ contentFaults := by decide
    exact List.mem_append_left _ (hdirectory (members_faults k bytes f h))
  | content hlisted hmem h => exact content_faults hk hlisted hmem f h

end Zip

end Maintainability
