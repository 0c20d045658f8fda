/-
Digests of methods. A text has a digest exactly when it holds no surrogate (`bodyDigest_ok`): white
space is collapsed and trimmed before, which neither makes nor hides one. The text of a method that
was cut out of a file is read back from bytes, so it is a text of characters, wherever the cuts
fall; hence every method of a file has a digest and is recorded (`every_method_recorded`).
-/
import Mathlib.Data.List.Forall2
import Mathlib.Data.List.TakeWhile
import Maintainability.Proofs.Encoding
import Maintainability.Proofs.Files

namespace Maintainability

/-! ## Texts that can be encoded -/

theorem CodePoint.isSurrogate_iff {c : CodePoint} : c.isSurrogate = true ↔ 0xD800 ≤ c.val ∧ c.val ≤ 0xDFFF := by
  simp [isSurrogate]

namespace Text

/-- No surrogate stands in the text. -/
def Encodable (t : Text) : Prop := ∀ c ∈ t, c.isSurrogate = false

theorem unencodable?_eq_none {t : Text} : t.unencodable? = none ↔ t.Encodable := by
  rw [unencodable?]
  cases h : t.dropWhile (!·.isSurrogate) with
  | nil => simpa [Encodable] using List.dropWhile_eq_nil_iff.1 h
  | cons c cs =>
    have hc : c ∈ t := (List.dropWhile_sublist _).subset (h ▸ List.mem_cons_self)
    have hbad : c.isSurrogate = true := by
      simpa [h] using List.head_dropWhile_not (p := (!·.isSurrogate)) (l := t) (by simp [h])
    simp only [reduceCtorEq, false_iff]
    intro hall
    simp [hall c hc] at hbad

theorem ofChars_encodable (cs : List Char) : (ofChars cs).Encodable := by
  intro x hx
  obtain ⟨c, -, rfl⟩ := List.mem_map.1 hx
  rw [← Bool.not_eq_true, CodePoint.isSurrogate_iff]
  rintro ⟨hlow, hhigh⟩
  have hc := Utf8.toNat_valid c
  have hval : (CodePoint.ofChar c).val = c.toNat := rfl
  omega

theorem not_isBlank_of_isSurrogate {c : CodePoint} (h : c.isSurrogate = true) : c.isBlank = false := by
  obtain ⟨hlow, hhigh⟩ := CodePoint.isSurrogate_iff.1 h
  simp only [CodePoint.isBlank, Bool.or_eq_false_iff, Bool.and_eq_false_iff, decide_eq_false_iff_not,
    beq_eq_false_iff_ne]
  omega

theorem mem_dropWhile_isBlank {t : Text} {c : CodePoint} (h : c.isBlank = false) :
    c ∈ t.dropWhile (·.isBlank) ↔ c ∈ t := by
  have hout : c ∉ t.takeWhile (·.isBlank) := fun hc => by simp [List.mem_takeWhile_imp hc] at h
  have hmem := List.mem_append (a := c) (s := t.takeWhile (·.isBlank)) (t := t.dropWhile (·.isBlank))
  rw [List.takeWhile_append_dropWhile] at hmem
  exact ⟨fun hc => hmem.2 (.inr hc), fun hc => (hmem.1 hc).resolve_left hout⟩

theorem mem_collapse {t : Text} {c : CodePoint} (h : c.isBlank = false) : c ∈ t.collapse ↔ c ∈ t := by
  fun_induction collapse t with
  | case1 => rfl
  | case2 d ds hd ih =>
    have hspace : c ≠ CodePoint.space := fun e => by simp [e, CodePoint.isBlank, CodePoint.space] at h
    have hne : c ≠ d := fun e => by simp [e, hd] at h
    rw [List.mem_cons, List.mem_cons, ih, mem_dropWhile_isBlank h]
    simp [hspace, hne]
  | case3 d ds hd ih => rw [List.mem_cons, List.mem_cons, ih]

/-- Only white space changes. -/
theorem mem_normalize {t : Text} {c : CodePoint} (h : c.isBlank = false) : c ∈ t.normalize ↔ c ∈ t := by
  rw [normalize, trim, List.mem_reverse, mem_dropWhile_isBlank h, List.mem_reverse, mem_dropWhile_isBlank h,
    mem_collapse h]

theorem normalize_encodable {t : Text} : t.normalize.Encodable ↔ t.Encodable := by
  simp only [Encodable, ← Bool.not_eq_true]
  refine forall_congr' fun c => ?_
  constructor
  · exact fun h hc hbad => h ((mem_normalize (not_isBlank_of_isSurrogate hbad)).2 hc) hbad
  · exact fun h hc hbad => h ((mem_normalize (not_isBlank_of_isSurrogate hbad)).1 hc) hbad

end Text

theorem Utf8.encodeText_ok {t : Text} : (∃ bytes, encodeText t = .ok bytes) ↔ t.Encodable := by
  rw [← Text.unencodable?_eq_none, encodeText]
  cases t.unencodable? <;> simp

/-- A text has a digest exactly when it can be encoded. -/
theorem bodyDigest_ok {t : Text} : (∃ d, bodyDigest t = .ok d) ↔ t.Encodable := by
  rw [← Text.normalize_encodable, ← Utf8.encodeText_ok, bodyDigest]
  cases Utf8.encodeText t.normalize <;> simp

/-! ## Files all of whose methods have digests -/

namespace Measure

/-- A method with its digest and its place. -/
def DigestOf (path : String) (m : Method) (x : String × Occurrence) : Prop :=
  bodyDigest m.source = .ok x.1 ∧ x.2 = occurrence path m

theorem digests_complete (path : String) {ms : List Method} (h : ∀ m ∈ ms, m.source.Encodable) :
    List.Forall₂ (DigestOf path) ms (digests path ms) := by
  induction ms with
  | nil => exact .nil
  | cons m ms ih =>
    obtain ⟨d, hd⟩ := bodyDigest_ok.2 (h m List.mem_cons_self)
    have hm : m.digest? = some d := by rw [Method.digest?, hd]; rfl
    rw [digests, List.filterMap_cons, hm]
    exact .cons ⟨hd, rfl⟩ (ih fun x hx => h x (List.mem_cons_of_mem _ hx))

/-- A method with a digest is noted and not warned about. -/
theorem addMethod_quiet {path : String} {t t' : Tally} {m : Method} {notes : List Log.Record}
    (hm : m.source.Encodable) (h : addMethod path t m = .ok (t', notes)) : ∀ r ∈ notes, r.level = .debug := by
  obtain ⟨d, hd⟩ := bodyDigest_ok.2 hm
  simp only [addMethod, hd] at h
  split at h
  · cases h
  · split at h
    · cases h
    · next hnote =>
      cases h
      simp [noteOf_level hnote]

theorem addMethods_quiet {path : String} : ∀ {ms : List Method} {t : Tally}, (∀ m ∈ ms, m.source.Encodable) →
    ∀ r ∈ (addMethods path t ms).2, r.level = .debug
  | [], _, _ => by simp [addMethods]
  | m :: ms, t, h => by
    rw [addMethods]
    split
    · simp
    · next t₁ notes hm =>
      intro r hr
      rcases List.mem_append.1 hr with hr | hr
      · exact addMethod_quiet (h m List.mem_cons_self) hm r hr
      · exact addMethods_quiet (fun x hx => h x (List.mem_cons_of_mem _ hx)) r hr

theorem methods_notes (s : Source) (ms : List Method) : (methods s ms).2 = (addMethods s.path {} ms).2 := by
  rw [methods]
  split
  · next h => rw [h]
  · next h =>
    rw [h]
    split <;> rfl

theorem file_notes {parser : SourceParser} {s : Source} {ms : List Method} {said : List Log.Record}
    (h : parser s = .methods ms said) (i : Index) :
    (file parser s i).2.2 = said ++ (addMethods s.path {} ms).2 := by
  rw [← methods_notes]
  simp only [file, prepare, h]
  split <;> next hm => rw [hm]

end Measure

/-- The text of every method was read from a stretch of the bytes of its file. -/
theorem Concrete.methods_source {l : Language} {bytes : List UInt8} {root : Concrete} {m : Method}
    (h : m ∈ root.methods l bytes) : ∃ start stop cs, Utf8.Read (slice bytes start stop) cs ∧
      m.source = .ofChars cs := by
  obtain ⟨⟨parent, c⟩, -, rfl⟩ := List.mem_map.1 h
  exact ⟨c.start, c.stop, c.content bytes, Utf8.decodeLossy_read _, rfl⟩

theorem Language.parse_inv {l : Language} {grammar : Recognizer} {text : Text} {ms : List Method}
    (h : l.parse grammar text = .ok ms) :
    ∃ bytes parsed, Utf8.encodeText text = .ok bytes ∧ grammar bytes = some parsed ∧
      ms = parsed.root.methods l bytes := by
  simp only [parse] at h
  split at h
  · cases h
  · next bytes hbytes =>
    split at h
    · cases h
    · next parsed hparsed =>
      split at h
      · cases h
      · cases h
        exact ⟨bytes, parsed, hbytes, hparsed, rfl⟩

/-- **Every method of a file has a digest and is recorded.** Whatever the language, the text and the tree
that a grammar makes of it, wherever its nodes begin and end: if the methods are found, each was read
from a stretch of the file and has a digest. So measuring the file warns of no method without one, and
if it ends with metrics, the index took one pair of a digest and a place for each method, in order. -/
theorem every_method_recorded (l : Language) (grammar : Recognizer) (path : String) (text : Text)
    (ms : List Method) (h : l.parse grammar text = .ok ms) :
    (∃ bytes, Utf8.encodeText text = .ok bytes ∧ ∀ m ∈ ms, ∃ start stop cs d,
      Utf8.Read (Concrete.slice bytes start stop) cs ∧ m.source = .ofChars cs ∧ bodyDigest m.source = .ok d) ∧
    ∀ i : Index,
      (∀ (o : Occurrence) e, o.unhashed e ∉ (Measure.file (l.sourceParser grammar) ⟨path, text⟩ i).2.2) ∧
      ∀ metrics, (Measure.file (l.sourceParser grammar) ⟨path, text⟩ i).1 = .ok (.measured metrics) →
        ∃ batch, List.Forall₂ (Measure.DigestOf path) ms batch ∧ metrics.methodCount = batch.length ∧
          i.recordDigests batch = (true, (Measure.file (l.sourceParser grammar) ⟨path, text⟩ i).2.1) ∧
          ∀ r, i = Recorded.index r →
            (Measure.file (l.sourceParser grammar) ⟨path, text⟩ i).2.1 = Recorded.index (r ++ batch) := by
  obtain ⟨bytes, parsed, hbytes, -, rfl⟩ := Language.parse_inv h
  have hclean : ∀ m ∈ parsed.root.methods l bytes, m.source.Encodable := by
    intro m hm
    obtain ⟨_, _, cs, -, hcs⟩ := Concrete.methods_source hm
    exact hcs ▸ Text.ofChars_encodable cs
  have hparser := (Language.sourceParser_methods (s := ⟨path, text⟩)).2 ⟨h, rfl⟩
  refine ⟨⟨bytes, hbytes, fun m hm => ?_⟩, fun i => ⟨fun o e hwarned => ?_, fun metrics hmeasured => ?_⟩⟩
  · obtain ⟨start, stop, cs, hread, hcs⟩ := Concrete.methods_source hm
    obtain ⟨d, hd⟩ := bodyDigest_ok.2 (hclean m hm)
    exact ⟨start, stop, cs, d, hread, hcs, hd⟩
  · -- a method without a digest is warned about, all that is noted here is for debugging
    rw [Measure.file_notes hparser, List.mem_append, List.mem_singleton] at hwarned
    rcases hwarned with hsaid | hnoted
    · cases hsaid
    · cases Measure.addMethods_quiet hclean _ hnoted
  · obtain ⟨batch, hready, htaken⟩ := Measure.file_measured hmeasured
    obtain ⟨ms, said, t, hms, ht, hmetrics, rfl⟩ := Measure.prepare_inv hready
    cases hparser.symm.trans hms
    have hbatch : t.batch = Measure.digests path (parsed.root.methods l bytes) := by
      simpa using Measure.addMethods_batch ht
    have hall := Measure.digests_complete path hclean
    rw [← hbatch] at hall
    refine ⟨t.batch, hall, ?_, htaken, ?_⟩
    · rw [(Measure.metrics_counts hmetrics).2, hall.length_eq]
    · rintro r rfl
      rw [Recorded.recordDigests_index] at htaken
      exact (congrArg Prod.snd htaken).symm

/-- A method that ends inside a character: the file is measured and the method recorded. -/
theorem every_method_recorded_cut :
    ∃ m metrics, ∃ x : String × Occurrence,
      Language.python.parse (fun _ => some ⟨.node "function_definition" true false none 0 2 [], false⟩)
        (.ofString "aé") = .ok [m] ∧ m.source = .ofString "a\uFFFD" ∧ Measure.DigestOf "a.py" m x ∧
      (Measure.file (Language.python.sourceParser fun _ =>
        some ⟨.node "function_definition" true false none 0 2 [], false⟩) ⟨"a.py", .ofString "aé"⟩ {}).1 =
          .ok (.measured metrics) ∧
      (Measure.file (Language.python.sourceParser fun _ =>
        some ⟨.node "function_definition" true false none 0 2 [], false⟩) ⟨"a.py", .ofString "aé"⟩ {}).2.1 =
          Recorded.index [x] := by
  let node : Concrete := .node "function_definition" true false none 0 2 []
  let grammar : Recognizer := fun _ => some ⟨node, false⟩
  let m : Method := node.toMethod .python [0x61, 0xC3, 0xA9] none
  have hwalk : Concrete.walkUnder [(none, node)] = [(none, node)] := by
    simp [node, Concrete.walkUnder, Concrete.under]
  have hparse : Language.python.parse grammar (.ofString "aé") = .ok [m] := by
    have hmethods : node.methods .python [0x61, 0xC3, 0xA9] = [m] := by
      rw [Concrete.methods, hwalk]
      rfl
    rw [← hmethods]
    rfl
  have hsource : m.source = .ofString "a\uFFFD" := by decide +kernel
  obtain ⟨⟨bytes, hbytes, hdigests⟩, hrun⟩ :=
    every_method_recorded .python grammar "a.py" (.ofString "aé") [m] hparse
  obtain ⟨-, -, -, d, -, -, hd⟩ := hdigests m (.head _)
  have hparser := (Language.sourceParser_methods (s := ⟨"a.py", .ofString "aé"⟩)).2 ⟨hparse, rfl⟩
  have hfile : ∃ metrics, (Measure.file (Language.python.sourceParser grammar) ⟨"a.py", .ofString "aé"⟩ {}).1 =
      .ok (.measured metrics) := by
    have htree : m.tree = some (node.tagged .python [0x61, 0xC3, 0xA9] none) := rfl
    have hone : max 1 (0 + (node.tagged .python [0x61, 0xC3, 0xA9] none).complexity) = 1 := by decide +kernel
    have hfits : (Binary64.ofInt? 1).isSome = true := by decide +kernel
    obtain ⟨cc, hcc⟩ := Option.isSome_iff_exists.1 hfits
    have hnoted : ∃ note, Measure.noteOf "a.py" m (node.tagged .python [0x61, 0xC3, 0xA9] none).complexity
        m.source.volume = .ok note :=
      Measure.noteOf_ok.2 ⟨by decide +kernel, by decide +kernel, by decide +kernel⟩
    obtain ⟨note, hnote⟩ := hnoted
    simp only [Measure.file, Measure.prepare, hparser, Measure.methods, Measure.addMethods, Measure.addMethod, hd,
      htree, hnote, Measure.metrics, maintainability?, hone, hcc]
    exact ⟨_, rfl⟩
  obtain ⟨metrics, hmetrics⟩ := hfile
  obtain ⟨batch, hbatch, -, -, hrecorded⟩ := (hrun {}).2 metrics hmetrics
  cases hbatch with
  | cons hx hnil =>
    cases hnil
    exact ⟨m, metrics, _, hparse, hsource, hx, hmetrics, hrecorded [] rfl⟩

end Maintainability
