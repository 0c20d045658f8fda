/-
Marked-up text as a format. `Marked` says which tags a text has and which text is left of it: a tag stands
in brackets, half of the backslashes before it stay and an odd one makes it plain, a backslash before any
other opening bracket goes, and so do the controls that a terminal would act on. `Matched` says that no tag
closes what is not open. Neither says how a text is cut into pieces.

The plain part of a text is the text that is left, if its tags are matched, and there is none otherwise
(`plain_eq_ok`). So plain characters and spans stay (`plain_parts`), and a closing tag behind them is a fault
(`plain_closing`).
-/
import Mathlib.Data.List.TakeWhile
import Maintainability.Report.Markup

namespace Maintainability.Markup

/-! ## The format -/

/-- What stands between the brackets of a tag. -/
inductive TagBody : List Char → Prop
  | intro {c : Char} {cs : List Char} (hstart : isTagStart c = true) (hopening : '[' ∉ cs) (hclosing : ']' ∉ cs) :
      TagBody (c :: cs)

instance : (body : List Char) → Decidable (TagBody body)
  | [] => isFalse nofun
  | c :: cs =>
    decidable_of_iff (isTagStart c = true ∧ '[' ∉ cs ∧ ']' ∉ cs)
      ⟨fun h => .intro h.1 h.2.1 h.2.2, fun | .intro hstart hopening hclosing => ⟨hstart, hopening, hclosing⟩⟩

/-- A tag stands in front, behind as many backslashes as there are. -/
def Tagged (cs : List Char) : Prop :=
  ∃ n body rest, TagBody body ∧ cs = List.replicate n '\\' ++ '[' :: (body ++ ']' :: rest)

/-- Characters without the controls that a terminal would act on. -/
def visible (cs : List Char) : List Char := cs.filter (!isActive ·)

/-- A text, its tags, and the text that is left without them. -/
inductive Marked : List Char → List (List Char) → List Char → Prop
  | done : Marked [] [] []
  | tag (n : Nat) {body rest t : List Char} {bs : List (List Char)} (h : TagBody body) (hrest : Marked rest bs t) :
      Marked (List.replicate (2 * n) '\\' ++ '[' :: (body ++ ']' :: rest)) (body :: bs) (List.replicate n '\\' ++ t)
  | escaped (n : Nat) {body rest t : List Char} {bs : List (List Char)} (h : TagBody body) (hrest : Marked rest bs t) :
      Marked (List.replicate (2 * n + 1) '\\' ++ '[' :: (body ++ ']' :: rest)) bs
        (List.replicate n '\\' ++ '[' :: (visible body ++ ']' :: t))
  | bracket {cs t : List Char} {bs : List (List Char)} (h : ¬ Tagged ('[' :: cs)) (hrest : Marked cs bs t) :
      Marked ('\\' :: '[' :: cs) bs ('[' :: t)
  | char {c : Char} {cs t : List Char} {bs : List (List Char)} (h : ¬ Tagged (c :: cs))
      (hc : c = '\\' → cs.head? ≠ some '[') (hrest : Marked cs bs t) : Marked (c :: cs) bs (visible [c] ++ t)

/-- The tags that are open before a tag and behind it, the innermost first. -/
inductive Turns : List (List Char) → List Char → List (List Char) → Prop
  | opens {isOpen : List (List Char)} {body : List Char} (h : (tagName body).head? ≠ some '/') :
      Turns isOpen body (folded (tagName body) :: isOpen)
  | closes {isOpen : List (List Char)} {body name : List Char} (h : tagName body = '/' :: name)
      (hname : folded name ≠ []) (hopen : folded name ∈ isOpen) : Turns isOpen body (isOpen.erase (folded name))
  | closesLast {inner : List Char} {isOpen : List (List Char)} {body name : List Char} (h : tagName body = '/' :: name)
      (hname : folded name = []) : Turns (inner :: isOpen) body isOpen

/-- Tags of which each one that closes has something to close. -/
inductive Matched : List (List Char) → List (List Char) → Prop
  | done {isOpen : List (List Char)} : Matched isOpen []
  | next {isOpen isOpen' : List (List Char)} {body : List Char} {bs : List (List Char)}
      (h : Turns isOpen body isOpen') (hmore : Matched isOpen' bs) : Matched isOpen (body :: bs)

/-! ## Tags are found -/

theorem tagEnd?_eq_some {cs body rest : List Char} :
    tagEnd? cs = some (body, rest) ↔ cs = body ++ ']' :: rest ∧ '[' ∉ body ∧ ']' ∉ body := by
  induction cs generalizing body with
  | nil => simp [tagEnd?]
  | cons c cs ih =>
    rw [tagEnd?]
    split
    · next hc =>
      subst hc
      constructor
      · intro h
        cases h
        simp
      · rintro ⟨hcs, -, hclosing⟩
        cases body with
        | nil => cases hcs; rfl
        | cons d body =>
          cases hcs
          simp at hclosing
    · next hc =>
      split
      · next ho =>
        subst ho
        simp only [reduceCtorEq, false_iff]
        rintro ⟨hcs, hopening, -⟩
        cases body with
        | nil => cases hcs
        | cons d body =>
          cases hcs
          simp at hopening
      · next ho =>
        rw [Option.map_eq_some_iff]
        constructor
        · rintro ⟨⟨b, r⟩, hb, hr⟩
          cases hr
          obtain ⟨rfl, hopening, hclosing⟩ := ih.1 hb
          simp [hopening, hclosing, Ne.symm hc, Ne.symm ho]
        · rintro ⟨hcs, hopening, hclosing⟩
          cases body with
          | nil =>
            cases hcs
            exact absurd rfl hc
          | cons d body =>
            cases hcs
            simp only [List.mem_cons, not_or] at hopening hclosing
            exact ⟨(body, rest), ih.2 ⟨rfl, hopening.2, hclosing.2⟩, rfl⟩

theorem isTagStart_ne {c : Char} (h : isTagStart c = true) : c ≠ '[' ∧ c ≠ ']' := by
  constructor <;> rintro rfl <;> exact absurd h (by decide)

theorem TagBody.opening {body : List Char} (h : TagBody body) : '[' ∉ body := by
  obtain ⟨hstart, hopening, -⟩ := h
  simp [Ne.symm (isTagStart_ne hstart).1, hopening]

theorem TagBody.closing {body : List Char} (h : TagBody body) : ']' ∉ body := by
  obtain ⟨hstart, -, hclosing⟩ := h
  simp [Ne.symm (isTagStart_ne hstart).2, hclosing]

theorem tag?_eq_some {cs body rest : List Char} :
    tag? cs = some (body, rest) ↔ TagBody body ∧ cs = '[' :: (body ++ ']' :: rest) := by
  constructor
  · intro h
    unfold tag? at h
    split at h
    · next c cs =>
      split at h
      · next hstart =>
        obtain ⟨hcs, hopening, hclosing⟩ := tagEnd?_eq_some.1 h
        cases body with
        | nil => exact absurd (List.cons.inj hcs).1 (isTagStart_ne hstart).2
        | cons d body =>
          cases hcs
          simp only [List.mem_cons, not_or] at hopening hclosing
          exact ⟨.intro hstart hopening.2 hclosing.2, rfl⟩
      · cases h
    · cases h
  · rintro ⟨hbody, rfl⟩
    have hend : tagEnd? (body ++ ']' :: rest) = some (body, rest) :=
      tagEnd?_eq_some.2 ⟨rfl, hbody.opening, hbody.closing⟩
    obtain ⟨hstart, -, -⟩ := hbody
    rw [List.cons_append, tag?, if_pos hstart]
    exact hend

theorem slashedTag?_eq_some {cs body rest : List Char} {n : Nat} :
    slashedTag? cs = some (n, body, rest) ↔
      TagBody body ∧ cs = List.replicate n '\\' ++ '[' :: (body ++ ']' :: rest) := by
  unfold slashedTag?
  rw [Option.map_eq_some_iff]
  constructor
  · rintro ⟨⟨b, r⟩, hb, hr⟩
    cases hr
    obtain ⟨hbody, hdrop⟩ := tag?_eq_some.1 hb
    refine ⟨hbody, ?_⟩
    have htake : cs.takeWhile (· = '\\') = List.replicate (cs.takeWhile (· = '\\')).length '\\' :=
      List.eq_replicate_of_mem fun c hc => by simpa using List.mem_takeWhile_imp hc
    rw [← htake, ← hdrop, List.takeWhile_append_dropWhile]
  · rintro ⟨hbody, rfl⟩
    have hslashes : ∀ c ∈ List.replicate n '\\', decide (c = '\\') = true := by simp
    refine ⟨(body, rest), tag?_eq_some.2 ⟨hbody, ?_⟩, ?_⟩
    · rw [List.dropWhile_append_of_pos hslashes]
      rfl
    · rw [List.takeWhile_append_of_pos hslashes]
      simp

theorem slashedTag?_eq_none {cs : List Char} : slashedTag? cs = none ↔ ¬ Tagged cs := by
  rw [Option.eq_none_iff_forall_ne_some]
  constructor
  · rintro h ⟨n, body, rest, htag⟩
    exact h _ (slashedTag?_eq_some.2 htag)
  · rintro h ⟨n, body, rest⟩ hs
    exact h ⟨n, body, rest, slashedTag?_eq_some.1 hs⟩

theorem not_tagged_nil : ¬ Tagged [] := by
  rintro ⟨n, body, rest, -, h⟩
  simp at h

theorem tagged_slash {cs : List Char} : Tagged ('\\' :: cs) ↔ Tagged cs := by
  constructor
  · rintro ⟨n, body, rest, hbody, h⟩
    cases n with
    | zero => simp at h
    | succ n => exact ⟨n, body, rest, hbody, (List.cons.inj h).2⟩
  · rintro ⟨n, body, rest, hbody, rfl⟩
    exact ⟨n + 1, body, rest, hbody, rfl⟩

theorem cut_tag {body : List Char} (h : TagBody body) (position n : Nat) (acc rest : List Char) :
    cut position acc (List.replicate n '\\' ++ '[' :: (body ++ ']' :: rest)) =
      flush acc (tagPieces position n body ++ cut (position + n + body.length + 2) [] rest) := by
  have hsome : slashedTag? (List.replicate n '\\' ++ '[' :: (body ++ ']' :: rest)) = some (n, body, rest) :=
    slashedTag?_eq_some.2 ⟨h, rfl⟩
  rw [cut]
  split
  · next hs =>
    cases hsome.symm.trans hs
    rfl
  · next hs => cases hsome.symm.trans hs

theorem cut_char {c : Char} {cs : List Char} (h : ¬ Tagged (c :: cs)) (position : Nat) (acc : List Char) :
    cut position acc (c :: cs) = cut (position + 1) (c :: acc) cs := by
  have hnone := slashedTag?_eq_none.2 h
  rw [cut]
  split
  · next hs => cases hnone.symm.trans hs
  · rfl

theorem cut_nil (position : Nat) (acc : List Char) : cut position acc [] = flush acc [] := by
  have hnone := slashedTag?_eq_none.2 not_tagged_nil
  rw [cut]
  split
  · next hs => cases hnone.symm.trans hs
  · rfl

/-! ## What is left -/

/-- The tags of pieces. -/
def tagsOf : List Piece → List (List Char)
  | [] => []
  | .plain _ :: ps => tagsOf ps
  | .tag _ body :: ps => body :: tagsOf ps

/-- The text that is left of pieces. -/
def shownOf : List Piece → List Char
  | [] => []
  | .plain cs :: ps => visible (unescape cs) ++ shownOf ps
  | .tag _ _ :: ps => shownOf ps

@[simp] theorem visible_append (a b : List Char) : visible (a ++ b) = visible a ++ visible b := List.filter_append ..

theorem visible_slashes (n : Nat) : visible (List.replicate n '\\') = List.replicate n '\\' := by
  simp [visible, isActive]

theorem unescape_char {c : Char} {cs : List Char} (h : c = '\\' → cs.head? ≠ some '[') :
    unescape (c :: cs) = c :: unescape cs := by
  refine unescape.eq_2 c cs fun more hc hcs => ?_
  exact h hc (by rw [hcs]; rfl)

theorem unescape_append {a b : List Char} (h : a.getLast? = some '\\' → b.head? ≠ some '[') :
    unescape (a ++ b) = unescape a ++ unescape b := by
  fun_induction unescape a with
  | case1 cs ih =>
    have hcs : cs.getLast? = some '\\' → b.head? ≠ some '[' := by
      intro hlast
      cases cs with
      | nil => cases hlast
      | cons c cs => exact h (by rw [List.getLast?_cons_cons, List.getLast?_cons_cons, hlast])
    rw [List.cons_append, List.cons_append, unescape, ih hcs, List.cons_append]
  | case2 c cs hc ih =>
    cases cs with
    | nil =>
      rw [List.singleton_append, unescape_char fun he => h (by rw [he]; rfl)]
      rfl
    | cons d cs =>
      have hpair : c = '\\' → (d :: (cs ++ b)).head? ≠ some '[' := by
        rintro he hd
        exact hc cs he (by cases hd; rfl)
      rw [List.cons_append, List.cons_append, unescape_char hpair, ← List.cons_append, ih fun hlast => ?_]
      · rfl
      · exact h (by rw [List.getLast?_cons_cons, hlast])
  | case3 => rfl

theorem unescape_of_notMem {cs : List Char} (h : '[' ∉ cs) : unescape cs = cs := by
  induction cs with
  | nil => rfl
  | cons c cs ih =>
    simp only [List.mem_cons, not_or] at h
    rw [unescape_char fun _ hhead => h.2 (List.mem_of_mem_head? hhead), ih h.2]

theorem tagsOf_append (ps qs : List Piece) : tagsOf (ps ++ qs) = tagsOf ps ++ tagsOf qs := by
  induction ps with
  | nil => rfl
  | cons p ps ih => cases p <;> simp [tagsOf, ih]

theorem shownOf_append (ps qs : List Piece) : shownOf (ps ++ qs) = shownOf ps ++ shownOf qs := by
  induction ps with
  | nil => rfl
  | cons p ps ih => cases p <;> simp [shownOf, ih]

theorem tagsOf_flush (acc : List Char) (ps : List Piece) : tagsOf (flush acc ps) = tagsOf ps := by
  unfold flush
  split <;> rfl

theorem shownOf_flush (acc : List Char) (ps : List Piece) :
    shownOf (flush acc ps) = visible (unescape acc.reverse) ++ shownOf ps := by
  unfold flush
  split
  · next h =>
    rw [List.isEmpty_iff.1 h]
    rfl
  · rfl

theorem unescape_slashes (n : Nat) : unescape (List.replicate n '\\') = List.replicate n '\\' :=
  unescape_of_notMem (by simp [List.mem_replicate])

theorem tagPieces_even (body : List Char) (position n : Nat) :
    tagsOf (tagPieces position (2 * n) body) = [body] ∧
      shownOf (tagPieces position (2 * n) body) = List.replicate n '\\' := by
  have hhalf : 2 * n / 2 = n := by omega
  simp [tagPieces, hhalf, tagsOf_flush, shownOf_flush, unescape_slashes, visible_slashes, tagsOf, shownOf]

theorem tagPieces_odd {body : List Char} (h : TagBody body) (position n : Nat) :
    tagsOf (tagPieces position (2 * n + 1) body) = [] ∧
      shownOf (tagPieces position (2 * n + 1) body) = List.replicate n '\\' ++ '[' :: (visible body ++ [']']) := by
  have hodd : (2 * n + 1) % 2 = 1 := by omega
  have hhalf : (2 * n + 1) / 2 = n := by omega
  have hplain : unescape ('[' :: (body ++ [']'])) = '[' :: (body ++ [']']) := by
    rw [unescape_char (by simp), unescape_of_notMem (by simp [h.opening])]
  simp only [tagPieces, hodd, hhalf, if_true, tagsOf_flush, shownOf_flush, List.reverse_replicate, unescape_slashes,
    visible_slashes, tagsOf, shownOf, List.cons_append, hplain, List.append_nil, true_and]
  simp [visible, isActive]

/-- Plain characters that were read before a text end where the text begins: no backslash of theirs stands
before a bracket of the text. -/
theorem Marked.cut {cs t : List Char} {bs : List (List Char)} (h : Marked cs bs t) :
    ∀ position acc, (acc.head? = some '\\' → cs.head? ≠ some '[') →
      tagsOf (cut position acc cs) = bs ∧ shownOf (cut position acc cs) = visible (unescape acc.reverse) ++ t := by
  induction h with
  | done =>
    intro position acc _
    simp [cut_nil, tagsOf_flush, shownOf_flush, tagsOf, shownOf]
  | tag n hbody _ ih =>
    intro position acc _
    obtain ⟨htags, hshown⟩ := tagPieces_even _ position n
    obtain ⟨ihtags, ihshown⟩ := ih (position + 2 * n + _ + 2) [] (by simp)
    rw [cut_tag hbody, tagsOf_flush, shownOf_flush, tagsOf_append, shownOf_append, htags, hshown, ihtags, ihshown]
    exact ⟨rfl, rfl⟩
  | escaped n hbody _ ih =>
    intro position acc _
    obtain ⟨htags, hshown⟩ := tagPieces_odd hbody position n
    obtain ⟨ihtags, ihshown⟩ := ih (position + (2 * n + 1) + _ + 2) [] (by simp)
    rw [cut_tag hbody, tagsOf_flush, shownOf_flush, tagsOf_append, shownOf_append, htags, hshown, ihtags, ihshown]
    simp [visible, unescape]
  | @bracket cs t bs hcs _ ih =>
    intro position acc _
    obtain ⟨ihtags, ihshown⟩ := ih (position + 1 + 1) ('[' :: '\\' :: acc) (by simp)
    have hpair : unescape ('[' :: '\\' :: acc).reverse = unescape acc.reverse ++ ['['] := by
      rw [List.reverse_cons, List.reverse_cons, List.append_assoc, unescape_append (by simp)]
      rfl
    rw [cut_char (mt tagged_slash.1 hcs), cut_char hcs, ihtags, ihshown, hpair]
    simp [visible, isActive]
  | @char c cs t bs hcs hc _ ih =>
    intro position acc hacc
    obtain ⟨ihtags, ihshown⟩ := ih (position + 1) (c :: acc) (by simpa using hc)
    have hone : unescape (c :: acc).reverse = unescape acc.reverse ++ [c] := by
      rw [List.reverse_cons, unescape_append (by simpa using hacc), unescape_char (by simp)]
      rfl
    rw [cut_char hcs, ihtags, ihshown, hone, visible_append, List.append_assoc]
    exact ⟨rfl, rfl⟩

theorem Marked.pieces {cs t : List Char} {bs : List (List Char)} (h : Marked cs bs t) :
    tagsOf (pieces cs) = bs ∧ shownOf (pieces cs) = t := by
  simpa [Markup.pieces, visible, unescape] using h.cut 0 [] (by simp)

theorem Marked.unique {cs t t' : List Char} {bs bs' : List (List Char)} (h : Marked cs bs t) (h' : Marked cs bs' t') :
    bs = bs' ∧ t = t' := by
  obtain ⟨htags, hshown⟩ := h.pieces
  obtain ⟨htags', hshown'⟩ := h'.pieces
  exact ⟨htags.symm.trans htags', hshown.symm.trans hshown'⟩

theorem exists_marked (cs : List Char) : ∃ bs t, Marked cs bs t := by
  induction hn : cs.length using Nat.strongRecOn generalizing cs with
  | ind n ih =>
    by_cases htag : Tagged cs
    · obtain ⟨m, body, rest, hbody, rfl⟩ := htag
      obtain ⟨bs, t, hrest⟩ := ih rest.length (by simp at hn; omega) rest rfl
      obtain ⟨k, rfl | rfl⟩ : ∃ k, m = 2 * k ∨ m = 2 * k + 1 := ⟨m / 2, by omega⟩
      · exact ⟨_, _, .tag k hbody hrest⟩
      · exact ⟨_, _, .escaped k hbody hrest⟩
    · match cs, hn, htag with
      | [], _, _ => exact ⟨_, _, .done⟩
      | [c], _, htag => exact ⟨_, _, .char htag (by simp) .done⟩
      | c :: d :: cs, hn, htag =>
        simp only [List.length_cons] at hn
        by_cases hpair : c = '\\' ∧ d = '['
        · obtain ⟨rfl, rfl⟩ := hpair
          obtain ⟨bs, t, hrest⟩ := ih cs.length (by omega) cs rfl
          exact ⟨_, _, .bracket (mt tagged_slash.2 htag) hrest⟩
        · obtain ⟨bs, t, hrest⟩ := ih (cs.length + 1) (by omega) (d :: cs) (by simp)
          exact ⟨_, _, .char htag (by simpa using hpair) hrest⟩

/-! ## The plain part -/

theorem step_eq_ok {isOpen isOpen' : List (List Char)} {position : Nat} {body : List Char} :
    step isOpen position body = .ok isOpen' ↔ Turns isOpen body isOpen' := by
  constructor
  · intro h
    unfold step at h
    split at h
    · next name hname =>
      simp only at h
      split at h
      · next hempty =>
        split at h
        · cases h
        · cases h
          exact .closesLast hname (List.isEmpty_iff.1 hempty)
      · next hne =>
        split at h
        · next hmem =>
          cases h
          exact .closes hname (by simpa using hne) (by simpa using hmem)
        · cases h
    · next hname =>
      cases h
      refine .opens fun hhead => ?_
      obtain ⟨name, hslash⟩ := List.head?_eq_some_iff.1 hhead
      exact hname name hslash
  · intro h
    cases h with
    | opens hname =>
      unfold step
      split
      · next hslash =>
        rw [hslash] at hname
        exact absurd rfl hname
      · rfl
    | closes hname hne hmem => simp [step, hname, hne, hmem]
    | closesLast hname he => simp [step, hname, he]

theorem step_error {isOpen : List (List Char)} {position : Nat} {body : List Char} {e : Fault}
    (h : step isOpen position body = .error e) : e.kind = .markup := by
  unfold step at h
  split at h
  · simp only at h
    split at h
    · split at h
      · cases h
        rfl
      · cases h
    · split at h
      · cases h
      · cases h
        rfl
  · cases h

theorem plainOf_plain {isOpen : List (List Char)} {cs t : List Char} {ps : List Piece} :
    plainOf isOpen (.plain cs :: ps) = .ok t ↔
      ∃ more, plainOf isOpen ps = .ok more ∧ visible (unescape cs) ++ more = t := by
  rw [plainOf]
  cases plainOf isOpen ps with
  | ok more => simp [bind, Except.bind, pure, Except.pure, visible]
  | error e => simp [bind, Except.bind]

theorem plainOf_tag {isOpen : List (List Char)} {position : Nat} {body t : List Char} {ps : List Piece} :
    plainOf isOpen (.tag position body :: ps) = .ok t ↔
      ∃ isOpen', Turns isOpen body isOpen' ∧ plainOf isOpen' ps = .ok t := by
  have hturns : ∀ isOpen', Turns isOpen body isOpen' ↔ step isOpen position body = .ok isOpen' := fun _ =>
    step_eq_ok.symm
  rw [plainOf]
  simp only [hturns]
  cases step isOpen position body with
  | ok isOpen' => simp [bind, Except.bind]
  | error e => simp [bind, Except.bind]

theorem plainOf_eq_ok {isOpen : List (List Char)} {ps : List Piece} {t : List Char} :
    plainOf isOpen ps = .ok t ↔ Matched isOpen (tagsOf ps) ∧ shownOf ps = t := by
  induction ps generalizing isOpen t with
  | nil =>
    simp only [plainOf, Except.ok.injEq, tagsOf, shownOf, iff_and_self]
    exact fun _ => .done
  | cons p ps ih =>
    cases p with
    | plain cs => simp [plainOf_plain, ih, tagsOf, shownOf, and_assoc]
    | tag position body =>
      simp only [plainOf_tag, ih, tagsOf, shownOf]
      constructor
      · rintro ⟨isOpen', hturns, hmatched, ht⟩
        exact ⟨.next hturns hmatched, ht⟩
      · rintro ⟨hmatched, ht⟩
        cases hmatched with
        | next hturns hmore => exact ⟨_, hturns, hmore, ht⟩

theorem plainOf_error {isOpen : List (List Char)} {ps : List Piece} {e : Fault} (h : plainOf isOpen ps = .error e) :
    e.kind = .markup := by
  induction ps generalizing isOpen with
  | nil => cases h
  | cons p ps ih =>
    cases p with
    | plain cs =>
      rw [plainOf] at h
      cases hps : plainOf isOpen ps with
      | ok more =>
        rw [hps] at h
        cases h
      | error e' =>
        rw [hps] at h
        cases h
        exact ih hps
    | tag position body =>
      rw [plainOf] at h
      cases hstep : step isOpen position body with
      | ok isOpen' =>
        rw [hstep] at h
        exact ih h
      | error e' =>
        rw [hstep] at h
        cases h
        exact step_error hstep

/-- **The plain part of a text** is the text that is left of it, if each closing tag has something to close. -/
theorem plain_eq_ok {cs t : List Char} : plain cs = .ok t ↔ ∃ bs, Marked cs bs t ∧ Matched [] bs := by
  obtain ⟨bs, t', hmarked⟩ := exists_marked cs
  obtain ⟨htags, hshown⟩ := hmarked.pieces
  rw [plain, plainOf_eq_ok, htags, hshown]
  constructor
  · rintro ⟨hmatched, rfl⟩
    exact ⟨bs, hmarked, hmatched⟩
  · rintro ⟨bs', hmarked', hmatched⟩
    obtain ⟨rfl, rfl⟩ := hmarked.unique hmarked'
    exact ⟨hmatched, rfl⟩

theorem plain_error {cs : List Char} {e : Fault} (h : plain cs = .error e) : e.kind = .markup := plainOf_error h

/-! ## Parts of a text -/

/-- Characters that are no markup: no bracket opens a tag, and there is no backslash and no control. -/
def Plain (cs : List Char) : Prop := ∀ c ∈ cs, c ≠ '[' ∧ c ≠ '\\' ∧ 0x20 ≤ c.toNat

instance (cs : List Char) : Decidable (Plain cs) := List.decidableBAll _ cs

/-- The name of a style: small letters and blanks behind a small letter. -/
inductive Name : List Char → Prop
  | intro {c : Char} {cs : List Char} (hfirst : 'a' ≤ c ∧ c ≤ 'z')
      (hmore : ∀ d ∈ cs, 'a' ≤ d ∧ d ≤ 'z' ∨ d = ' ') : Name (c :: cs)

instance : (name : List Char) → Decidable (Name name)
  | [] => isFalse nofun
  | c :: cs =>
    -- the general instance for characters goes through all of them
    have : Decidable (∀ d ∈ cs, 'a' ≤ d ∧ d ≤ 'z' ∨ d = ' ') := List.decidableBAll _ cs
    decidable_of_iff (('a' ≤ c ∧ c ≤ 'z') ∧ ∀ d ∈ cs, 'a' ≤ d ∧ d ≤ 'z' ∨ d = ' ')
      ⟨fun h => .intro h.1 h.2, fun | .intro hfirst hmore => ⟨hfirst, hmore⟩⟩

/-- A part of a text: plain characters, with or without a style. -/
inductive Styled where
  | text (cs : List Char)
  | span (name cs : List Char)

/-- How a part is spelled. -/
def Styled.spelled : Styled → List Char
  | .text cs => cs
  | .span name cs => '[' :: (name ++ ']' :: (cs ++ '[' :: '/' :: (name ++ [']'])))

/-- What is shown of a part. -/
def Styled.shown : Styled → List Char
  | .text cs | .span _ cs => cs

/-- The characters of a part are plain, and its style has a name. -/
def Styled.Fits : Styled → Prop
  | .text cs => Plain cs
  | .span name cs => Name name ∧ Plain cs

instance : (p : Styled) → Decidable p.Fits
  | .text cs => inferInstanceAs (Decidable (Plain cs))
  | .span name cs => inferInstanceAs (Decidable (Name name ∧ Plain cs))

theorem visible_plain {cs : List Char} (h : Plain cs) : visible cs = cs := by
  refine List.filter_eq_self.2 fun c hc => ?_
  have hc := (h c hc).2.2
  have h7 : c.toNat ≠ 7 := by omega
  have h8 : c.toNat ≠ 8 := by omega
  have h13 : ¬ c.toNat ≤ 13 := by omega
  simp [isActive, h7, h8, h13]

theorem not_tagged_of_head {c : Char} (hopen : c ≠ '[') (hslash : c ≠ '\\') (cs : List Char) : ¬ Tagged (c :: cs) := by
  rintro ⟨n, body, rest, -, h⟩
  cases n with
  | zero => exact hopen (List.cons.inj h).1
  | succ n => exact hslash (List.cons.inj h).1

theorem Marked.plain {u rest t : List Char} {bs : List (List Char)} (h : Plain u) (hrest : Marked rest bs t) :
    Marked (u ++ rest) bs (u ++ t) := by
  induction u with
  | nil => exact hrest
  | cons c u ih =>
    obtain ⟨hc, hu⟩ := List.forall_mem_cons.1 h
    have hone : visible [c] = [c] := visible_plain (by simpa [Plain] using hc)
    have hmarked := Marked.char (not_tagged_of_head hc.1 hc.2.1 _) (fun he => absurd he hc.2.1) (ih hu)
    rw [hone] at hmarked
    exact hmarked

theorem name_ne {c : Char} (h : 'a' ≤ c ∧ c ≤ 'z' ∨ c = ' ') : c ≠ '[' ∧ c ≠ ']' ∧ c ≠ '=' := by
  refine ⟨?_, ?_, ?_⟩ <;> rintro rfl <;> exact absurd h (by decide)

theorem Name.tagBody {name : List Char} (h : Name name) : TagBody name := by
  obtain @⟨c, cs, hfirst, hmore⟩ := h
  have hstart : isTagStart c = true := by simp [isTagStart, hfirst.1, hfirst.2]
  exact .intro hstart (fun hmem => (name_ne (hmore _ hmem)).1 rfl) fun hmem => (name_ne (hmore _ hmem)).2.1 rfl

theorem Name.tagName {name : List Char} (h : Name name) : tagName name = name := by
  obtain ⟨hfirst, hmore⟩ := h
  refine List.takeWhile_eq_self_iff.2 fun c hc => ?_
  rcases List.mem_cons.1 hc with rfl | hc
  · simp [(name_ne (.inl hfirst)).2.2]
  · simp [(name_ne (hmore c hc)).2.2]

theorem Name.head {name : List Char} (h : Name name) : name.head? ≠ some '/' := by
  obtain ⟨hfirst, -⟩ := h
  rintro he
  cases he
  exact absurd hfirst (by decide)

theorem TagBody.slashed {body : List Char} (h : TagBody body) : TagBody ('/' :: body) :=
  .intro (by decide) h.opening h.closing

theorem Turns.unique {isOpen isOpen' isOpen'' : List (List Char)} {body : List Char} (h : Turns isOpen body isOpen')
    (h' : Turns isOpen body isOpen'') : isOpen' = isOpen'' := by
  have hstep : step isOpen 0 body = .ok isOpen' := step_eq_ok.2 h
  exact Except.ok.inj (hstep.symm.trans (step_eq_ok.2 h'))

theorem matched_cons {isOpen isOpen' bs : List (List Char)} {body : List Char} (h : Turns isOpen body isOpen') :
    Matched isOpen (body :: bs) ↔ Matched isOpen' bs := by
  constructor
  · intro hmatched
    cases hmatched with
    | next hturns hmore =>
      rw [h.unique hturns]
      exact hmore
  · exact .next h

theorem matched_pair {isOpen bs : List (List Char)} {name : List Char} (h : Name name) :
    Matched isOpen (name :: ('/' :: name) :: bs) ↔ Matched isOpen bs := by
  have hopens : Turns isOpen name (folded name :: isOpen) := by
    have hhead : (tagName name).head? ≠ some '/' := by
      rw [h.tagName]
      exact h.head
    have hturns : Turns isOpen name (folded (Markup.tagName name) :: isOpen) := .opens hhead
    rwa [h.tagName] at hturns
  have hslash : tagName ('/' :: name) = '/' :: name := congrArg ('/' :: ·) h.tagName
  have hcloses : Turns (folded name :: isOpen) ('/' :: name) isOpen := by
    by_cases hempty : folded name = []
    · exact .closesLast hslash hempty
    · have hturns : Turns (folded name :: isOpen) ('/' :: name) ((folded name :: isOpen).erase (folded name)) :=
        .closes hslash hempty (by simp)
      rwa [List.erase_cons_head] at hturns
  exact (matched_cons hopens).trans (matched_cons hcloses)

/-- Parts in front of a text are shown in front of what is shown of it, and leave no tag open. -/
theorem Marked.parts {ps : List Styled} (h : ∀ p ∈ ps, p.Fits) {rest t : List Char} {bs : List (List Char)}
    (hrest : Marked rest bs t) :
    ∃ tags, Marked (ps.flatMap Styled.spelled ++ rest) (tags ++ bs) (ps.flatMap Styled.shown ++ t) ∧
      ∀ isOpen, Matched isOpen (tags ++ bs) ↔ Matched isOpen bs := by
  induction ps with
  | nil => exact ⟨[], hrest, fun _ => Iff.rfl⟩
  | cons p ps ih =>
    obtain ⟨hp, hps⟩ := List.forall_mem_cons.1 h
    obtain ⟨tags, hmarked, hmatched⟩ := ih hps
    cases p with
    | text cs =>
      refine ⟨tags, ?_, hmatched⟩
      simpa [Styled.spelled, Styled.shown] using hmarked.plain hp
    | span name cs =>
      obtain ⟨hname, hcs⟩ := hp
      refine ⟨name :: ('/' :: name) :: tags, ?_, fun isOpen => (matched_pair hname).trans (hmatched isOpen)⟩
      have hclose := (Marked.tag 0 hname.tagBody.slashed hmarked).plain hcs
      simpa [Styled.spelled, Styled.shown] using Marked.tag 0 hname.tagBody hclose

theorem plain_parts {ps : List Styled} (h : ∀ p ∈ ps, p.Fits) :
    plain (ps.flatMap Styled.spelled) = .ok (ps.flatMap Styled.shown) := by
  obtain ⟨tags, hmarked, hmatched⟩ := Marked.parts h .done
  rw [List.append_nil, List.append_nil, List.append_nil] at hmarked
  rw [List.append_nil] at hmatched
  exact plain_eq_ok.2 ⟨tags, hmarked, (hmatched []).2 .done⟩

/-- A closing tag behind parts has nothing to close. -/
theorem plain_closing {ps : List Styled} (h : ∀ p ∈ ps, p.Fits) {name : List Char} (hname : Name name)
    (rest : List Char) :
    ∃ e, plain (ps.flatMap Styled.spelled ++ '[' :: '/' :: (name ++ ']' :: rest)) = .error e ∧ e.kind = .markup := by
  obtain ⟨bs, t, hrest⟩ := exists_marked rest
  obtain ⟨tags, hmarked, hmatched⟩ := Marked.parts h (Marked.tag 0 hname.tagBody.slashed hrest)
  have hunmatched : ¬ Matched [] (('/' :: name) :: bs) := by
    intro hm
    cases hm with
    | next hturns _ =>
      cases hturns with
      | opens hhead => simp [tagName] at hhead
      | closes _ _ hopen => cases hopen
  cases hplain : plain (ps.flatMap Styled.spelled ++ '[' :: '/' :: (name ++ ']' :: rest)) with
  | error e => exact ⟨e, rfl, plain_error hplain⟩
  | ok t' =>
    obtain ⟨bs', hmarked', hmatched'⟩ := plain_eq_ok.1 hplain
    rw [(hmarked'.unique hmarked).1] at hmatched'
    exact absurd ((hmatched []).1 hmatched') hunmatched

end Maintainability.Markup
