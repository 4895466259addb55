import AsmBridge.Data.Directive
import AsmBridge.Proofs.Outcome
import AsmBridge.Proofs.Source.Quotes
import AsmBridge.Proofs.Text.Digits

/-!
# Spelled strings

A byte of a string literal is written as the character that it is the code of, by the letter of an
escape, or by three octal digits. A row of literals with commas between them passes three readers,
and each of them has its own view of quotes and backslashes: the one that looks for a comment, the
one that looks for commas, and the one of the escapes. They agree where the literals end, so that
the bytes of a string directive are those that its literals spell (`bytes_of_spells`).
-/

namespace AsmBridge

namespace Literal

/-- The text spells the byte: it is a printable character other than quote and backslash, the escape
of a letter, or that of three octal digits. -/
inductive SpellsByte : UInt8 → List Char → Prop
  | plain {c : Char} (hlow : 32 ≤ c.toNat) (hhigh : c.toNat ≤ 126) (hquote : c ≠ '"')
      (hescape : c ≠ '\\') : SpellsByte (UInt8.ofNat c.toNat) [c]
  | letter {c : Char} {b : UInt8} (hletter : (c, b) ∈ letterEscapes) : SpellsByte b ['\\', c]
  | octal {i j k : ℕ} (hi : i < 8) (hj : j < 8) (hk : k < 8) :
      SpellsByte (UInt8.ofNat (64 * i + 8 * j + k)) ['\\', i.digitChar, j.digitChar, k.digitChar]

/-- The text spells the bytes one after another. -/
inductive SpellsBytes : List UInt8 → List Char → Prop
  | nil : SpellsBytes [] []
  | cons {b : UInt8} {bs : List UInt8} {piece body : List Char} (hb : SpellsByte b piece)
      (hbs : SpellsBytes bs body) : SpellsBytes (b :: bs) (piece ++ body)

/-- The text is a row of literals, which spell the strings of bytes, with a comma and perhaps blanks
between them. -/
inductive SpellsRow : List (List UInt8) → List Char → Prop
  | one {bs : List UInt8} {body : List Char} (hbs : SpellsBytes bs body) :
      SpellsRow [bs] ('"' :: (body ++ ['"']))
  | cons {bs : List UInt8} {bss : List (List UInt8)} {body before after row : List Char}
      (hbs : SpellsBytes bs body) (hbefore : ∀ c ∈ before, Text.isBlank c = true)
      (hafter : ∀ c ∈ after, Text.isBlank c = true) (hrow : SpellsRow bss row) :
      SpellsRow (bs :: bss) ('"' :: (body ++ ['"']) ++ before ++ ',' :: (after ++ row))

variable {b : UInt8} {bs : List UInt8} {bss : List (List UInt8)} {piece body row s : List Char}

/-! ## Bytes -/

lemma bytes_escape {more : List Char} (h : escape s = .ok (b, more)) :
    bytes ('\\' :: s) = (bytes more).map (b :: ·) := by
  rw [bytes.eq_def]
  simp only [BEq.rfl, if_true]
  split
  · rename_i e he
    cases h.symm.trans he
  · rename_i b' more' he
    obtain ⟨rfl, rfl⟩ := Prod.mk.inj (Except.ok.inj (h.symm.trans he))
    rfl

lemma escape_octal {i j k : ℕ} (hi : i < 8) (hj : j < 8) (hk : k < 8) (s : List Char) :
    escape (i.digitChar :: j.digitChar :: k.digitChar :: s) =
      .ok (UInt8.ofNat (64 * i + 8 * j + k), s) := by
  have hdigit : ∀ {n}, n < 8 → Text.digitIn? 8 n.digitChar = some n :=
    fun hn => digitIn?_digitChar (by decide) hn
  have hletter : letterEscapes.lookup i.digitChar = none ∧
      (i.digitChar == 'x' || i.digitChar == 'X') = false := by
    interval_cases i <;> decide
  have hrun : digitRun 8 3 (i.digitChar :: j.digitChar :: k.digitChar :: s) =
      [i.digitChar, j.digitChar, k.digitChar] := by
    simp [digitRun, hdigit hi, hdigit hj, hdigit hk]
  have hvalue : value 8 [i.digitChar, j.digitChar, k.digitChar] = 64 * i + 8 * j + k := by
    simp only [value, List.foldl_cons, List.foldl_nil, hdigit hi, hdigit hj, hdigit hk,
      Option.getD_some]
    omega
  unfold escape
  simp only [hletter.1, hletter.2, hdigit hi, hrun, hvalue, Option.isSome_some, if_true,
    Bool.false_eq_true, if_false]
  rfl

/-- A byte that is spelled is read, whatever stands behind it. -/
lemma SpellsByte.bytes_append (h : SpellsByte b piece) (s : List Char) :
    bytes (piece ++ s) = (bytes s).map (b :: ·) := by
  cases h with
  | @plain c hlow hhigh hquote hescape =>
    have hbyte : byte c = .ok (UInt8.ofNat c.toNat) := if_pos (by omega)
    rw [List.singleton_append, bytes.eq_def]
    simp only [beq_eq_false_iff_ne.mpr hescape, Bool.false_eq_true, if_false, hbyte]
    cases bytes s <;> rfl
  | @letter c b hletter =>
    have hlookup : ∀ p ∈ letterEscapes, letterEscapes.lookup p.1 = some p.2 := by decide
    refine bytes_escape (s := c :: s) ?_
    simp only [escape, hlookup _ hletter]
  | octal hi hj hk => exact bytes_escape (escape_octal hi hj hk s)

/-- The bytes that a text spells are those that are read. -/
lemma SpellsBytes.bytes_eq (h : SpellsBytes bs body) : bytes body = .ok bs := by
  induction h with
  | nil =>
    rw [bytes.eq_def]
  | cons hb _ ih =>
    rw [hb.bytes_append, ih]
    rfl

/-! ## Quotes -/

lemma isStringBody_of_digit {n : ℕ} (hn : n < 8) (hbody : Source.IsStringBody body) :
    Source.IsStringBody (n.digitChar :: body) := by
  have hplain : n.digitChar ≠ '"' ∧ n.digitChar ≠ '\\' := by interval_cases n <;> decide
  exact .plain hplain.1 hplain.2 hbody

/-- Spelled bytes may stand between quotes. -/
lemma SpellsBytes.isStringBody (h : SpellsBytes bs body) : Source.IsStringBody body := by
  induction h with
  | nil => exact .nil
  | cons hb _ ih =>
    cases hb with
    | plain hlow hhigh hquote hescape => exact .plain hquote hescape ih
    | letter hletter => exact .escape _ ih
    | octal hi hj hk =>
      exact .escape _ (isStringBody_of_digit hj (isStringBody_of_digit hk ih))

/-- A row of literals begins and ends with a quote. -/
lemma SpellsRow.ends (h : SpellsRow bss row) : row.head? = some '"' ∧ row.getLast? = some '"' := by
  induction h with
  | one hbs => exact ⟨rfl, by rw [← List.cons_append, List.getLast?_concat]⟩
  | @cons bs bss body before after row hbs _ _ _ ih =>
    have hne : row ≠ [] := fun hnil => by simp [hnil] at ih
    refine ⟨rfl, ?_⟩
    rw [List.getLast?_append_of_ne_nil _ (List.cons_ne_nil _ _), ← List.singleton_append,
      ← List.append_assoc, List.getLast?_append_of_ne_nil _ hne, ih.2]

lemma SpellsRow.trim_eq (h : SpellsRow bss row) : Text.trim row = row := by
  refine Text.trim_eq_self ?_ ?_
  · rw [h.ends.1]
    rintro c ⟨⟩
    rfl
  · rw [h.ends.2]
    rintro c ⟨⟩
    rfl

/-- No comment begins in a row of literals. -/
lemma SpellsRow.isUncommented (h : SpellsRow bss row) : Source.IsUncommented row := by
  induction h with
  | one hbs => exact Source.isUncommented_string hbs.isStringBody
  | @cons bs bss body before after row hbs hbefore hafter _ ih =>
    have hcomma : Source.IsUncommented [','] := Source.isUncommented_of_plain (by decide)
    rw [← List.singleton_append]
    exact ((Source.isUncommented_string hbs.isStringBody).append
      (Source.isUncommented_of_blank hbefore)).append
      (hcomma.append ((Source.isUncommented_of_blank hafter).append ih))

end Literal

/-! ## Arguments -/

namespace Directive

open Literal

variable {bs : List UInt8} {bss : List (List UInt8)} {body row s : List Char} {a : ArgState}

/-- No string is open and no escape has begun. -/
structure ArgState.IsOutside (a : ArgState) : Prop where
  quoted : a.quoted = false
  escaped : a.escaped = false

namespace ArgState

/-- The state behind more characters of the same argument. -/
def withText (a : ArgState) (s : List Char) : ArgState :=
  { a with current := s.reverse ++ a.current }

lemma IsOutside.withText (ha : a.IsOutside) (s : List Char) : (a.withText s).IsOutside :=
  ⟨ha.quoted, ha.escaped⟩

@[simp] lemma withText_done (a : ArgState) (s : List Char) : (a.withText s).done = a.done := rfl

lemma foldl_append_eq {t : List Char} (hs : s.foldl step a = a.withText s)
    (ht : t.foldl step (a.withText s) = (a.withText s).withText t) :
    (s ++ t).foldl step a = a.withText (s ++ t) := by
  rw [List.foldl_append, hs, ht]
  simp [ArgState.withText]

/-- Blanks belong to the argument in which they stand. -/
lemma foldl_blank (ha : a.IsOutside) (hs : ∀ c ∈ s, Text.isBlank c = true) :
    s.foldl step a = a.withText s := by
  induction s generalizing a with
  | nil => rfl
  | cons c s ih =>
    obtain ⟨hc, hs⟩ := List.forall_mem_cons.mp hs
    have hplain : c ≠ '"' ∧ c ≠ ',' := by
      constructor <;> rintro rfl <;> cases hc
    have hstep : a.step c = a.withText [c] := by
      simp [step, ha.quoted, ha.escaped, hplain.1, hplain.2, ArgState.withText]
    refine foldl_append_eq (s := [c]) hstep ?_
    exact ih (ha.withText [c]) hs

/-- A string belongs to one argument, whatever commas and escapes it has. -/
lemma foldl_string (ha : a.IsOutside) (hbody : Source.IsStringBody body) :
    ('"' :: (body ++ ['"'])).foldl step a = a.withText ('"' :: (body ++ ['"'])) := by
  have hopen : ∀ b : ArgState, b.quoted = true → b.escaped = false →
      (body ++ ['"']).foldl step b = { b.withText (body ++ ['"']) with quoted := false } := by
    induction hbody with
    | nil =>
      intro b hquoted hescaped
      simp [step, hquoted, hescaped, ArgState.withText]
    | @plain c body hquote hescape _ ih =>
      intro b hquoted hescaped
      have hstep : b.step c = b.withText [c] := by
        simp [step, hquoted, hescaped, hquote, hescape, ArgState.withText]
      rw [List.cons_append, List.foldl_cons, hstep, ih (b.withText [c]) hquoted hescaped]
      simp [ArgState.withText]
    | @escape c body _ ih =>
      intro b hquoted hescaped
      have hstep : (b.step '\\').step c = b.withText ['\\', c] := by
        simp [step, hquoted, hescaped, ArgState.withText]
      rw [List.cons_append, List.cons_append, List.foldl_cons, List.foldl_cons, hstep,
        ih (b.withText ['\\', c]) hquoted hescaped]
      simp [ArgState.withText]
  have hstep : a.step '"' = { a.withText ['"'] with quoted := true } := by
    simp [step, ha.quoted, ha.escaped, ArgState.withText]
  have hquoted : a.quoted = false := ha.quoted
  rw [List.foldl_cons, hstep, hopen { a.withText ['"'] with quoted := true } rfl ha.escaped]
  simp [ArgState.withText, hquoted]

/-- An argument is a string without the blanks around it. -/
lemma argument_withText {after : List Char} (ha : ∀ c ∈ a.current, Text.isBlank c = true)
    (hafter : ∀ c ∈ after, Text.isBlank c = true) :
    ((a.withText ('"' :: (body ++ ['"']))).withText after).argument =
      String.ofList ('"' :: (body ++ ['"'])) := by
  have hcurrent : ((a.withText ('"' :: (body ++ ['"']))).withText after).current.reverse =
      a.current.reverse ++ ('"' :: (body ++ ['"']) ++ after) := by
    simp [ArgState.withText]
  have htrim : Text.trim ('"' :: (body ++ ['"'])) = '"' :: (body ++ ['"']) := by
    refine Text.trim_eq_self ?_ ?_
    · rintro c ⟨⟩
      rfl
    · rw [← List.cons_append, List.getLast?_concat]
      rintro c ⟨⟩
      rfl
  rw [argument, hcurrent, Text.trim_append_left (by simpa using ha), Text.trim_append_right hafter,
    htrim]

/-- The state behind the comma that ends an argument. -/
def next (a : ArgState) : ArgState := { a with done := a.argument :: a.done, current := [] }

lemma IsOutside.next (ha : a.IsOutside) : a.next.IsOutside := ⟨ha.quoted, ha.escaped⟩

lemma step_comma (ha : a.IsOutside) : a.step ',' = a.next := by
  simp [step, ha.quoted, ha.escaped, ArgState.next]

/-- The arguments of a text that ends here. -/
def arguments (a : ArgState) : List String := (a.argument :: a.done).reverse

/-- The arguments of a row of literals are the literals. -/
lemma arguments_of_row (h : SpellsRow bss row) (ha : a.IsOutside)
    (hblank : ∀ c ∈ a.current, Text.isBlank c = true) :
    ∃ args, (row.foldl step a).arguments = a.done.reverse ++ args ∧
      List.Forall₂ (fun bs arg => ∃ body, SpellsBytes bs body ∧
        arg = String.ofList ('"' :: (body ++ ['"']))) bss args := by
  induction h generalizing a with
  | @one bs body hbs =>
    refine ⟨[String.ofList ('"' :: (body ++ ['"']))], ?_, .cons ⟨body, hbs, rfl⟩ .nil⟩
    have hargument := @argument_withText body a [] hblank (by simp)
    rw [foldl_string ha hbs.isStringBody, arguments, List.reverse_cons]
    exact congrArg (fun arg => a.done.reverse ++ [arg]) hargument
  | @cons bs bss body before after row hbs hbefore hafter _ ih =>
    have hargument := @argument_withText body a before hblank hbefore
    have hlit := ha.withText ('"' :: (body ++ ['"']))
    have hnext := (hlit.withText before).next
    rw [List.foldl_append, List.foldl_append, foldl_string ha hbs.isStringBody,
      foldl_blank hlit hbefore, List.foldl_cons, step_comma (hlit.withText before),
      List.foldl_append, foldl_blank hnext hafter]
    obtain ⟨args, hargs, hall⟩ := ih (hnext.withText after)
      (by simpa [ArgState.withText, ArgState.next] using hafter)
    refine ⟨String.ofList ('"' :: (body ++ ['"'])) :: args, ?_, .cons ⟨body, hbs, rfl⟩ hall⟩
    rw [hargs, withText_done, ArgState.next, hargument]
    simp

end ArgState

/-- Where no argument is empty, the arguments are those of the state at the end. -/
lemma argv_eq_arguments {d : Directive}
    (h : ∀ arg ∈ (d.args.toList.foldl ArgState.step {}).arguments, arg ≠ "") :
    d.argv = (d.args.toList.foldl ArgState.step {}).arguments := by
  rw [argv, Text.chars_eq_toList]
  refine if_neg fun hempty => ?_
  obtain ⟨hargument, -⟩ := Bool.and_eq_true_iff.mp hempty
  exact h _ (List.mem_reverse.mpr List.mem_cons_self) (String.isEmpty_iff.mp hargument)

/-- A literal is read as the bytes that it spells. -/
lemma stringBytes_of_spells (h : SpellsBytes bs body) (terminated : Bool) :
    stringBytes terminated (String.ofList ('"' :: (body ++ ['"']))) =
      .ok (if terminated then bs ++ [0] else bs) := by
  have hlast : ('"' :: (body ++ ['"'])).getLast? = some '"' := by
    rw [← List.cons_append, List.getLast?_concat]
  unfold stringBytes
  simp only [String.toList_ofList, hlast, List.head?_cons, BEq.rfl, Bool.and_self, if_true,
    List.drop_one, List.tail_cons, List.dropLast_concat, h.bytes_eq]
  rfl

/-- The bytes of the strings, with a zero byte behind each one if they are terminated. -/
def stringData (terminated : Bool) (bss : List (List UInt8)) : List UInt8 :=
  bss.flatMap fun bs => if terminated then bs ++ [0] else bs

/-- The bytes of a string directive are those that its literals spell. -/
lemma bytes_of_spells {d : Directive} {terminated : Bool}
    (hname : terminated? d.name = some terminated) (hargs : SpellsRow bss d.args.toList) :
    d.bytes = .ok (stringData terminated bss) := by
  have hother : ∀ p ∈ [(".ascii", false), (".asciz", true), (".string", true)],
      integerBytes? p.1 = none ∧ floatFormat? p.1 = none := by decide
  obtain ⟨front, back, heq, -⟩ := List.lookup_eq_some_iff.mp hname
  obtain ⟨hinteger, hfloat⟩ := hother (d.name, terminated) (by rw [heq]; simp)
  obtain ⟨args, hargs, hall⟩ := ArgState.arguments_of_row hargs (a := {}) ⟨rfl, rfl⟩ (by simp)
  have hargv : d.argv = args := by
    rw [List.reverse_nil, List.nil_append] at hargs
    rw [argv_eq_arguments, hargs]
    intro arg harg
    obtain ⟨bs, -, body, -, rfl⟩ := exists_of_mem_right hall (hargs ▸ harg)
    intro hnil
    cases String.ofList_eq_empty_iff.mp hnil
  have hbytes : d.argv.mapM (stringBytes terminated) =
      .ok (bss.map fun bs => if terminated then bs ++ [0] else bs) := by
    rw [hargv, mapM_eq_ok, List.forall₂_map_right_iff]
    refine hall.flip.imp ?_
    rintro arg bs ⟨body, hbs, rfl⟩
    exact stringBytes_of_spells hbs terminated
  unfold bytes
  simp only [hinteger, hfloat, hname, concatBytes, hbytes]
  rfl

end Directive

end AsmBridge
