/-
Where sources come from. A source that is taken in has the text of a file: a member of an archive, a
file of a directory, or the whole of what was given (`WayIn.origin`). The bytes of that file, without
one byte order mark, are well-formed UTF-8, and they are what the text is written as again
(`decode_text`). So a grammar is given just these bytes (`Language.parse_of_bytes`), and no text that
is taken in is refused for its encoding (`Language.answer_ne_unencodable`).
-/
import Maintainability.Proofs.Directories
import Maintainability.Proofs.WellFormed

namespace Maintainability

/-! ## Grammars -/

namespace Language

/-- What is made of the answer of a grammar for some bytes. -/
def answer (l : Language) (bytes : List UInt8) : Option Parsed → Except String (List Method)
  | none => .error "no grammar available"
  | some parsed => if parsed.hasError then .error (parsed.root.describeError bytes) else .ok (parsed.root.methods l bytes)

/-- The reason for which a text is refused that cannot be written. -/
def unencodable : String := "encoding error: surrogates not allowed"

theorem parse_of_bytes {l : Language} {grammar : Recognizer} {t : Text} {bytes : List UInt8}
    (h : Utf8.encodeText t = .ok bytes) : l.parse grammar t = l.answer bytes (grammar bytes) := by
  rw [parse, h]
  dsimp only
  cases grammar bytes <;> rfl

/-- An error that a tree has is not one of the encoding. -/
theorem describeError_ne (root : Concrete) (bytes : List UInt8) : root.describeError bytes ≠ unencodable := by
  intro h
  -- the first letter tells them apart
  have hhead := congrArg (fun s => s.toList.head?) h
  rw [Concrete.describeError] at hhead
  split at hhead
  · split at hhead <;> simp [unencodable] at hhead
  · simp [unencodable] at hhead

theorem answer_ne_unencodable (l : Language) (bytes : List UInt8) (parsed : Option Parsed) :
    l.answer bytes parsed ≠ .error unencodable := by
  rw [answer.eq_def]
  split
  · simp [unencodable]
  · split
    · next parsed _ => exact fun h => describeError_ne parsed.root bytes (Except.error.inj h)
    · simp

/-- A text is refused for its encoding exactly if it has a surrogate. -/
theorem parse_unencodable {l : Language} {grammar : Recognizer} {t : Text} :
    l.parse grammar t = .error unencodable ↔ ¬ t.Encodable := by
  rw [← Utf8.encodeText_ok]
  cases h : Utf8.encodeText t with
  | error e => simp [parse, h, unencodable]
  | ok bytes =>
    rw [parse_of_bytes h]
    simp [answer_ne_unencodable]

end Language

namespace Intake

open Utf8 (WellFormed unmarked)

/-! ## Texts -/

theorem decode_some {path : String} {bytes : List UInt8} {t : Text} :
    (decode path bytes).1 = some t ↔ ∃ cs, unmarked bytes = Utf8.encode cs ∧ t = .ofChars cs := by
  simp only [← Utf8.decode_eq_ok, decode, Utf8.decodeMarked_eq]
  cases Utf8.decode (unmarked bytes) with
  | error e => simp
  | ok cs => simp [eq_comm]

theorem decode_wellFormed {path : String} {bytes : List UInt8} :
    (∃ t, (decode path bytes).1 = some t) ↔ WellFormed (unmarked bytes) := by
  rw [Utf8.wellFormed_iff]
  constructor
  · rintro ⟨t, h⟩
    obtain ⟨cs, hcs, -⟩ := decode_some.1 h
    exact ⟨cs, hcs⟩
  · rintro ⟨cs, hcs⟩
    exact ⟨_, decode_some.2 ⟨cs, hcs, rfl⟩⟩

/-- A text that was read is written as the bytes again, without their mark. -/
theorem decode_text {path : String} {bytes : List UInt8} {t : Text} (h : (decode path bytes).1 = some t) :
    Utf8.encodeText t = .ok (unmarked bytes) := by
  obtain ⟨cs, hcs, rfl⟩ := decode_some.1 h
  rw [Utf8.encodeText_ofChars, hcs]

/-- A text is read from its bytes, with a mark in front, or without one if it cannot be mistaken for one. -/
theorem decode_written {t : Text} (ht : t.Encodable) (path : String) :
    ∃ bytes, Utf8.encodeText t = .ok bytes ∧ (decode path (Utf8.mark ++ bytes)).1 = some t ∧
      (t.head? ≠ some 0xFEFF → (decode path bytes).1 = some t) := by
  obtain ⟨cs, rfl⟩ := Text.exists_chars ht
  refine ⟨_, Utf8.encodeText_ofChars cs, decode_some.2 ⟨cs, Utf8.unmarked_mark _, rfl⟩, fun hhead => ?_⟩
  refine decode_some.2 ⟨cs, Utf8.unmarked_encode fun hmark => hhead ?_, rfl⟩
  rw [Text.ofChars, List.head?_map, hmark]
  rfl

/-! ## Files -/

/-- A file that data hold as an archive, under its path. -/
inductive Packed (data : List UInt8) : String → List UInt8 → Prop
  | member {ms : List Archive.Member} {m : Archive.Member} {p : Path} {bytes : List UInt8}
      (listed : Zip.members data = .ok ms) (mem : m ∈ ms) (safe : memberPath m.name = .ok p)
      (content : m.content () = .ok bytes) : Packed data p.text bytes

/-- A file that data are, or that they hold. -/
inductive Given (name : String) (data : List UInt8) : String → List UInt8 → Prop
  | whole : Given name data name data
  | packed {path : String} {bytes : List UInt8} (h : Packed data path bytes) : Given name data path bytes

/-- A file that a target leads to: what can be read there, or what stands below it. -/
inductive Reached (w : Workspace) (target : Path) : String → List UInt8 → Prop
  | read {data : List UInt8} {path : String} {bytes : List UInt8} (h : w.read target = .ok data)
      (given : Given (String.ofList target.name) data path bytes) : Reached w target path bytes
  | below {place : Place} {segments : List (List Char)} {bytes : List UInt8}
      (found : w.find? target = some (place, .directory))
      (h : (place ++ segments, .file bytes true true) ∈ w.nodes) : Reached w target (Path.text ⟨0, segments⟩) bytes

/-- The three ways in, and the files that each may take. -/
inductive WayIn (c : Config) : Taken → (String → List UInt8 → Prop) → Prop
  | archive (name : String) (data : List UInt8) : WayIn c (fromArchive c name data) (Packed data)
  | upload (name : String) (data : List UInt8) : WayIn c (fromUpload c name data)
      (Given (String.ofList (uploadName name)) data)
  | target (w : Workspace) (p : Path) : WayIn c (collect c w p) (Reached w p)

/-- The source has the text of one of the files. -/
def HasOrigin (file : String → List UInt8 → Prop) (s : Source) : Prop :=
  ∃ bytes, file s.path bytes ∧ (decode s.path bytes).1 = some s.text

theorem decoded?_some {p : Path} {bytes : List UInt8} {s : Source} (h : decoded? p bytes = some s) :
    s.path = p.text ∧ (decode p.text bytes).1 = some s.text := by
  rw [decoded?, Option.map_eq_some_iff] at h
  obtain ⟨t, ht, rfl⟩ := h
  exact ⟨rfl, ht⟩

section

variable {c : Config} {l : Language} {sources : List Source} {s : Source}

theorem usable?_some {m : Archive.Member} (h : usable? c l m = some s) :
    ∃ p bytes, memberPath m.name = .ok p ∧ m.content () = .ok bytes ∧ decoded? p bytes = some s := by
  rw [usable?] at h
  split at h
  · cases h
  split at h
  · cases h
  next p hsafe =>
  split at h
  · split at h
    · cases h
    · next bytes hbytes => exact ⟨p, bytes, hsafe, hbytes, h⟩
  · cases h

theorem Found.source?_some {f : Found} (h : f.source? c l = some s) :
    ∃ bytes, f.node = .file bytes true true ∧ decoded? ⟨0, f.segments⟩ bytes = some s := by
  rw [Found.source?] at h
  split at h
  · next bytes hnode =>
    split at h
    · exact ⟨bytes, hnode, h⟩
    · cases h
  · cases h

theorem mem_nodes_of_filesUnder {w : Workspace} {place : Place} {segments : List (List Char)} {node : Node}
    (h : (segments, node) ∈ w.filesUnder place) : (place ++ segments, node) ∈ w.nodes := by
  rw [filesUnder_below, List.mem_mergeSort, List.mem_filterMap] at h
  obtain ⟨⟨p, node'⟩, hmem, hbelow⟩ := h
  rw [below?.eq_def] at hbelow
  split at hbelow
  · next heq =>
    split at hbelow
    · next hprefix =>
      cases heq
      obtain ⟨rest, rfl⟩ := List.isPrefixOf_iff_prefix.1 hprefix
      rw [List.drop_left] at hbelow
      cases hbelow
      exact hmem
    · cases hbelow
  · cases hbelow

theorem fromArchive_origin {archive : String} {data : List UInt8} (h : (fromArchive c archive data).1 = .ok sources)
    (hs : s ∈ sources) : HasOrigin (Packed data) s := by
  rw [fromArchive, fromArchiveBy] at h
  split at h
  · cases h
  split at h
  · cases h
  next ms hlisted =>
  rw [fromMembers_sources h] at hs
  obtain ⟨m, hm, hsource⟩ := List.mem_filterMap.1 (mem_upTo hs)
  obtain ⟨p, bytes, hsafe, hcontent, hdecoded⟩ := usable?_some hsource
  obtain ⟨hpath, htext⟩ := decoded?_some hdecoded
  exact ⟨bytes, hpath ▸ .member hlisted hm hsafe hcontent, hpath ▸ htext⟩

theorem single_origin {name : String} {data : List UInt8} (h : (single name data).1 = .ok sources)
    (hs : s ∈ sources) : HasOrigin (Given name data) s := by
  cases h
  rw [Option.mem_toList, Option.map_eq_some_iff] at hs
  obtain ⟨t, ht, rfl⟩ := hs
  exact ⟨data, .whole, ht⟩

theorem fromDirectory_origin {w : Workspace} {target : Path} {place : Place}
    (hfound : w.find? target = some (place, .directory)) (h : (fromDirectory c l w target place).1 = .ok sources)
    (hs : s ∈ sources) : HasOrigin (Reached w target) s := by
  rw [fromDirectory_sources h] at hs
  obtain ⟨f, hf, hsource⟩ := List.mem_filterMap.1 (mem_upTo hs)
  obtain ⟨bytes, hnode, hdecoded⟩ := Found.source?_some hsource
  obtain ⟨hpath, htext⟩ := decoded?_some hdecoded
  obtain ⟨⟨segments, node⟩, hunder, rfl⟩ := List.mem_map.1 hf
  cases hnode
  exact ⟨bytes, hpath ▸ .below hfound (mem_nodes_of_filesUnder hunder), hpath ▸ htext⟩

theorem HasOrigin.mono {file file' : String → List UInt8 → Prop} (h : HasOrigin file s)
    (himp : ∀ path bytes, file path bytes → file' path bytes) : HasOrigin file' s := by
  obtain ⟨bytes, hfile, htext⟩ := h
  exact ⟨bytes, himp _ _ hfile, htext⟩

/-- Whatever is taken in has the text of a file. -/
theorem WayIn.origin {taken : Taken} {file : String → List UInt8 → Prop} (hway : WayIn c taken file)
    (h : taken.1 = .ok sources) (hs : s ∈ sources) : HasOrigin file s := by
  cases hway with
  | archive name data => exact fromArchive_origin h hs
  | upload name data =>
    rw [fromUpload, fromUploadBy] at h
    split at h
    · cases h
    split at h
    · exact (fromArchive_origin h hs).mono fun _ _ => .packed
    split at h
    · cases h
    split at h
    · exact single_origin h hs
    · cases h
      cases hs
  | target w p =>
    rw [collect] at h
    split at h
    · cases h
    dsimp only at h
    split at h
    · cases h
    · next hfound => exact fromDirectory_origin hfound h hs
    split at h
    · split at h
      · cases h
      · next data hread =>
        exact (fromArchive_origin h hs).mono fun _ _ hpacked => .read hread (.packed hpacked)
    split at h
    · split at h
      · cases h
      · next data hread => exact (single_origin h hs).mono fun _ _ => .read hread
    · cases h

end

/-! ## What a grammar is given -/

/-- **A grammar is given the bytes of the file.** A file can be decoded exactly if its bytes, without one
byte order mark, are well-formed UTF-8, and its text is written as these bytes again. Every source that
is taken in, on whatever way and with whatever configuration, has the text of one of the files there;
whatever the language and the grammar, parsing it is to ask the grammar about the bytes of that file
without the mark, and it is never refused for its encoding, which only a text with a surrogate is.
Conversely a text without surrogates is decoded from its bytes behind a mark, and from its bytes alone
if it does not begin with U+FEFF. -/
theorem grammar_given_file :
    (∀ path bytes, ((∃ t, (decode path bytes).1 = some t) ↔ WellFormed (unmarked bytes)) ∧
      ∀ t, (decode path bytes).1 = some t → Utf8.encodeText t = .ok (unmarked bytes)) ∧
    (∀ c taken file, WayIn c taken file → ∀ sources, taken.1 = .ok sources → ∀ s ∈ sources,
      ∃ bytes, file s.path bytes ∧ (decode s.path bytes).1 = some s.text ∧
        ∀ (l : Language) grammar, l.parse grammar s.text = l.answer (unmarked bytes) (grammar (unmarked bytes)) ∧
          l.parse grammar s.text ≠ .error Language.unencodable) ∧
    (∀ (l : Language) grammar t, l.parse grammar t = .error Language.unencodable ↔ ¬ t.Encodable) ∧
    ∀ path (t : Text), t.Encodable → ∃ bytes, Utf8.encodeText t = .ok bytes ∧
      (decode path (Utf8.mark ++ bytes)).1 = some t ∧
      (t.head? ≠ some 0xFEFF → (decode path bytes).1 = some t) := by
  refine ⟨fun path bytes => ⟨decode_wellFormed, fun t => decode_text⟩, ?_,
    fun l grammar t => Language.parse_unencodable, fun path t ht => decode_written ht path⟩
  intro c taken file hway sources h s hs
  obtain ⟨bytes, hfile, htext⟩ := hway.origin h hs
  have hwritten := decode_text htext
  refine ⟨bytes, hfile, htext, fun l grammar => ⟨Language.parse_of_bytes hwritten, ?_⟩⟩
  rw [Language.parse_of_bytes hwritten]
  exact l.answer_ne_unencodable _ _

/-- Of two marks in front, the second one belongs to the file, and the grammar is given it. -/
theorem grammar_given_file_marked_twice :
    (fromUpload oneSource "src\\A.java" (Utf8.mark ++ Utf8.mark ++ [0x61])).1 = .ok [⟨"A.java", [0xFEFF, 0x61]⟩] ∧
      ∀ (l : Language) grammar,
        l.parse grammar [0xFEFF, 0x61] = l.answer (Utf8.mark ++ [0x61]) (grammar (Utf8.mark ++ [0x61])) := by
  have hsources : (fromUpload oneSource "src\\A.java" (Utf8.mark ++ Utf8.mark ++ [0x61])).1 =
      .ok [⟨"A.java", [0xFEFF, 0x61]⟩] := by
    with_unfolding_all rfl
  obtain ⟨hdecoded, htaken, -⟩ := grammar_given_file
  obtain ⟨bytes, -, htext, hgiven⟩ := htaken oneSource _ _ (.upload _ _) _ hsources _ (.head _)
  -- whichever file it was, its text was written as these bytes
  have hbytes : Utf8.encodeText [0xFEFF, 0x61] = .ok (Utf8.mark ++ [0x61]) := by with_unfolding_all rfl
  have hfile : Utf8.mark ++ [0x61] = unmarked bytes := Except.ok.inj (hbytes.symm.trans ((hdecoded _ bytes).2 _ htext))
  rw [hfile]
  exact ⟨hsources, fun l grammar => (hgiven l grammar).1⟩

end Intake

end Maintainability
