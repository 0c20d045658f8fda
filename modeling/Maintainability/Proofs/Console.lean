/-
What is assumed of a terminal, and texts that it can read. What a terminal makes of marked-up text is its own affair;
what is assumed of it is what is documented (`Console.Documented`): plain text stays, a style that is opened and closed
is not shown, and a tag that closes where none is open is a fault. `Console.standard` keeps to that
(`Console.standard_documented`).

A text of the report's own (`Own`) can be read on such a terminal. Numbers are inert, so what can go wrong with one
is only that it cannot be written (`hinges_int`, `hinges_fixed`).
-/
import Maintainability.Proofs.Markup
import Maintainability.Report

namespace Maintainability

/-! ## What is documented of a terminal -/

namespace Markup

/-- A text without the code of an emoji, which stands between two colons and holds no blank. -/
def NoCode (cs : List Char) : Prop :=
  ∀ before code behind, cs = before ++ ':' :: (code ++ ':' :: behind) → ' ' ∈ code

theorem noCode_of_notMem {cs : List Char} (h : ':' ∉ cs) : NoCode cs := by
  rintro before code behind rfl
  simp at h

theorem NoCode.append {u cs : List Char} (hu : ':' ∉ u) (h : NoCode cs) : NoCode (u ++ cs) := by
  intro before code behind he
  rcases List.append_eq_append_iff.1 he with ⟨more, rfl, hmore⟩ | ⟨more, rfl, hmore⟩
  · exact h more code behind hmore
  · cases more with
    | nil => exact h [] code behind hmore.symm
    | cons c more =>
      rw [(List.cons.inj hmore).1] at hu
      simp at hu

theorem NoCode.colon {cs : List Char} (h : NoCode cs) : NoCode (':' :: ' ' :: cs) := by
  intro before code behind he
  cases before with
  | nil =>
    cases code with
    | nil => simp at he
    | cons c code =>
      simp only [List.nil_append, List.cons_append, List.cons.injEq, true_and] at he
      rw [he.1]
      exact List.mem_cons_self
  | cons c before =>
    cases before with
    | nil => simp at he
    | cons d before =>
      simp only [List.cons_append, List.cons.injEq] at he
      exact h before code behind he.2.2

theorem noCode_colon : NoCode [':'] := by
  intro before code behind he
  have hlength := congrArg List.length he
  simp only [List.length_append, List.length_cons, List.length_nil] at hlength
  omega

/-- Characters that have no meaning anywhere: plain ones without colons. -/
def Inert (cs : List Char) : Prop := ∀ c ∈ cs, c ≠ '[' ∧ c ≠ '\\' ∧ c ≠ ':' ∧ 0x20 ≤ c.toNat

instance (cs : List Char) : Decidable (Inert cs) := List.decidableBAll _ cs

theorem Inert.plain {cs : List Char} (h : Inert cs) : Plain cs := fun c hc =>
  ⟨(h c hc).1, (h c hc).2.1, (h c hc).2.2.2⟩

theorem Inert.noColon {cs : List Char} (h : Inert cs) : ':' ∉ cs := fun hc => (h _ hc).2.2.1 rfl

theorem Inert.noCode {cs : List Char} (h : Inert cs) : NoCode cs := noCode_of_notMem h.noColon

end Markup

open Markup

/-- What is documented of the markup of a terminal. -/
structure Console.Documented (c : Console) : Prop where
  /-- Plain text is shown as it is, and of a style that is opened and closed only its text. -/
  styled : ∀ ps : List Styled, (∀ p ∈ ps, p.Fits) → NoCode (ps.flatMap Styled.shown) →
    c.read (ps.flatMap Styled.spelled) = .ok (ps.flatMap Styled.shown)
  /-- A tag that closes where none is open is a fault of markup. -/
  closing : ∀ ps : List Styled, (∀ p ∈ ps, p.Fits) → ∀ name rest, Name name →
    ∃ e, c.read (ps.flatMap Styled.spelled ++ '[' :: '/' :: (name ++ ']' :: rest)) = .error e ∧ e.kind = .markup

/-- The terminal that runs keeps to what is documented. -/
theorem Console.standard_documented : Console.standard.Documented where
  styled _ hps _ := plain_parts hps
  closing _ hps _ rest hname := plain_closing hps hname rest

/-- The terminal can read a marked-up text. -/
def Console.Reads (c : Console) (markup : String) : Prop := ∃ cs, c.read markup.toList = .ok cs

/-- A text of the report's own: plain text and styles that are opened and closed. -/
def Markup.Own (s : String) : Prop :=
  ∃ ps : List Styled, (∀ p ∈ ps, p.Fits) ∧ NoCode (ps.flatMap Styled.shown) ∧ s.toList = ps.flatMap Styled.spelled

theorem Markup.Own.reads {c : Console} (hc : c.Documented) {s : String} (h : Own s) : c.Reads s := by
  obtain ⟨ps, hps, hcode, hs⟩ := h
  exact ⟨_, by rw [hs]; exact hc.styled ps hps hcode⟩

theorem Markup.own_of_part {s : String} {p : Styled} (hp : p.Fits) (hcolon : ':' ∉ p.shown)
    (hs : s.toList = p.spelled) : Own s :=
  ⟨[p], by simpa using hp, by simpa using noCode_of_notMem hcolon, by simpa using hs⟩

theorem Markup.own_inert {s : String} (h : Inert s.toList) : Own s :=
  own_of_part (p := .text s.toList) h.plain h.noColon rfl

/-! ## Faults and where they come from -/

namespace Markup

/-- There is no fault if and only if something holds, and a fault is one of those that are told. -/
structure Hinges (o : Fault → Prop) (fault? : Option Fault) (p : Prop) : Prop where
  free : fault? = none ↔ p
  told : ∀ e, fault? = some e → o e

/-- The fault of a computation. -/
def faultOf {α : Type} : Except Fault α → Option Fault
  | .ok _ => none
  | .error e => some e

theorem faultOf_eq_none {α : Type} {x : Except Fault α} : faultOf x = none ↔ ∃ a, x = .ok a := by
  cases x <;> simp [faultOf]

theorem faultOf_eq_some {α : Type} {x : Except Fault α} {e : Fault} : faultOf x = some e ↔ x = .error e := by
  cases x <;> simp [faultOf]

variable {o : Fault → Prop}

theorem Hinges.iff {fault? : Option Fault} {p q : Prop} (h : Hinges o fault? p) (hpq : p ↔ q) : Hinges o fault? q :=
  ⟨h.free.trans hpq, h.told⟩

theorem Hinges.never : Hinges o none True := ⟨by simp, by simp⟩

theorem Hinges.and {e : Fault} {p : Prop} (h : Hinges o (some e) p) (q : Prop) : Hinges o (some e) (p ∧ q) := by
  have hp : ¬ p := by
    intro hp
    cases h.free.2 hp
  exact ⟨⟨nofun, fun hpq => absurd hpq.1 hp⟩, h.told⟩

theorem Hinges.or {a b : Option Fault} {p q : Prop} (ha : Hinges o a p) (hb : Hinges o b q) :
    Hinges o (a.or b) (p ∧ q) := by
  cases a with
  | none =>
    have hp : p := ha.free.1 rfl
    exact hb.iff ⟨fun hq => ⟨hp, hq⟩, And.right⟩
  | some e => exact ha.and q

theorem hinges_exists {α : Type} {x : Except Fault α} (h : ∀ e, x = .error e → o e) :
    Hinges o (faultOf x) (∃ a, x = .ok a) :=
  ⟨faultOf_eq_none, fun e he => h e (faultOf_eq_some.1 he)⟩

theorem hinges_pure {α : Type} (a : α) : Hinges o (faultOf (pure a)) True := Hinges.never

theorem hinges_bind {α β : Type} {x : Except Fault α} {next : α → Except Fault β} {p q : Prop}
    (hx : Hinges o (faultOf x) p) (hnext : ∀ a, x = .ok a → Hinges o (faultOf (next a)) q) :
    Hinges o (faultOf (x >>= next)) (p ∧ q) := by
  cases x with
  | ok a => exact hx.or (hnext a rfl)
  | error e => exact hx.and q

theorem hinges_mapM {α β : Type} {xs : List α} {f : α → Except Fault β} {p : α → Prop}
    (h : ∀ x ∈ xs, Hinges o (faultOf (f x)) (p x)) : Hinges o (faultOf (xs.mapM f)) (∀ x ∈ xs, p x) := by
  induction xs with
  | nil =>
    have htrue : True ↔ ∀ x ∈ ([] : List α), p x := by simp
    exact Hinges.never.iff htrue
  | cons x xs ih =>
    obtain ⟨hx, hxs⟩ := List.forall_mem_cons.1 h
    have hall : (p x ∧ (∀ y ∈ xs, p y) ∧ True) ↔ ∀ y ∈ x :: xs, p y := by simp
    rw [List.mapM_cons]
    exact (hinges_bind hx fun y _ => hinges_bind (ih hxs) fun ys _ => hinges_pure (y :: ys)).iff hall

end Markup

/-! ## Numbers in the report -/

namespace Markup

theorem inert_append {a b : List Char} : Inert (a ++ b) ↔ Inert a ∧ Inert b := List.forall_mem_append

theorem inert_cons {c : Char} {cs : List Char} :
    Inert (c :: cs) ↔ (c ≠ '[' ∧ c ≠ '\\' ∧ c ≠ ':' ∧ 0x20 ≤ c.toNat) ∧ Inert cs :=
  List.forall_mem_cons

theorem inert_digits (n : Nat) : Inert (Nat.toDigits 10 n) := by
  intro c hc
  have hdigit : c.isDigit = true := Nat.isDigit_of_mem_toDigits (by decide) (by decide) hc
  have hrange : 48 ≤ c.toNat := by
    simp only [Char.isDigit, Bool.and_eq_true, decide_eq_true_eq] at hdigit
    exact hdigit.1
  refine ⟨?_, ?_, ?_, by omega⟩ <;> rintro rfl <;> exact absurd hdigit (by decide)

theorem inert_nat (n : Nat) : Inert (toString n).toList := by
  rw [Nat.toString_eq_ofList_toDigits, String.toList_ofList]
  exact inert_digits n

theorem inert_int (n : Int) : Inert (toString n).toList := by
  rw [Int.toString_eq_repr, Int.repr_eq_if]
  split
  · exact inert_nat _
  · rw [String.toList_append]
    exact inert_append.2 ⟨by decide, inert_nat _⟩

theorem inert_pointed (places units : Nat) : Inert (Decimal.pointed places units) := by
  simp only [Decimal.pointed]
  split
  · exact inert_digits _
  · refine inert_append.2 ⟨inert_digits _, inert_cons.2 ⟨by decide, inert_append.2 ⟨fun c hc => ?_, inert_digits _⟩⟩⟩
    rw [(List.mem_replicate.1 hc).2]
    decide

theorem inert_decimal (places : Nat) (x : Float) : Inert (Decimal.fixed places x).toList := by
  have hsign : ∀ b : Bool, Inert (if b then ['-'] else []) := by decide
  simp only [Decimal.fixed]
  split
  · decide
  · split
    · rw [String.toList_ofList]
      exact inert_append.2 ⟨hsign _, by decide⟩
    · rw [String.toList_ofList]
      exact inert_append.2 ⟨hsign _, inert_pointed _ _⟩

theorem inert_fixed {places : Nat} {q : Quantity} {s : String} (h : q.fixed places = .ok s) : Inert s.toList := by
  obtain ⟨x, -, rfl⟩ := Quantity.fixed_ok.1 h
  exact inert_decimal places x

theorem inert_written {n : Int} {s : String} (h : Written.int n = .ok s) : Inert s.toList := by
  obtain ⟨-, rfl⟩ := Written.int_ok.1 h
  exact inert_int n

/-- The faults of numbers that cannot be written are told. -/
structure Numeric (o : Fault → Prop) : Prop where
  long : o .tooLong
  large : o .tooLarge

variable {o : Fault → Prop}

theorem hinges_int (ho : Numeric o) (n : Int) : Hinges o (faultOf (Written.int n)) (Literal.Short n) := by
  have hexists : (∃ s, Written.int n = .ok s) ↔ Literal.Short n := by simp [Written.int_ok]
  refine (hinges_exists fun e he => ?_).iff hexists
  rw [(Written.int_error.1 he).2]
  exact ho.long

theorem hinges_fixed (ho : Numeric o) (places : Nat) (q : Quantity) :
    Hinges o (faultOf (q.fixed places)) q.HasDouble := by
  refine (hinges_exists fun e he => ?_).iff Quantity.exists_fixed
  rw [(Quantity.fixed_error.1 he).2]
  exact ho.large

end Markup

end Maintainability
