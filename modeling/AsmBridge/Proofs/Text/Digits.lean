import AsmBridge.Text.Numeral
import AsmBridge.Text.Quoted
import Mathlib.Data.List.Basic
import Mathlib.Tactic.Common
import Mathlib.Tactic.IntervalCases

/-!
# Digits

Digits that are written read back to their number, in every base up to sixteen
(`digits?_toDigits`), and so do hexadecimal ones behind zeros (`digits?_hexDigits`).
-/

namespace AsmBridge

section Digits

variable {base n : ℕ}

lemma digitIn?_digitChar {d : ℕ} (hbase : base ≤ 16) (h : d < base) :
    Text.digitIn? base d.digitChar = some d := by
  have hd : d < 16 := by omega
  interval_cases d <;> exact if_pos h

/-- The digits of a number. -/
lemma mem_toDigits (hbase : 1 < base) {c : Char} (h : c ∈ Nat.toDigits base n) :
    ∃ d < base, c = d.digitChar := by
  induction n using Nat.strongRecOn with
  | _ n ih =>
    rcases Nat.lt_or_ge n base with hn | hn
    · rw [Nat.toDigits_of_lt_base hn, List.mem_singleton] at h
      exact ⟨n, hn, h⟩
    · rw [Nat.toDigits_of_base_le hbase hn, List.mem_append, List.mem_singleton] at h
      rcases h with h | h
      · exact ih (n / base) (Nat.div_lt_self (by omega) hbase) h
      · exact ⟨n % base, Nat.mod_lt _ (by omega), h⟩

lemma mem_hexDigits {width n : ℕ} {c : Char} (h : c ∈ Text.hexDigits width n) :
    ∃ d < 16, c = d.digitChar := by
  rw [Text.hexDigits, List.mem_append] at h
  rcases h with h | h
  · exact ⟨0, by decide, List.eq_of_mem_replicate h⟩
  · exact mem_toDigits (by decide) h

lemma hexDigits_ne_nil (width n : ℕ) : Text.hexDigits width n ≠ [] := fun hnil =>
  Nat.toDigits_ne_nil (List.append_eq_nil_iff.mp hnil).2

/-- The last character of a text that ends in digits is one of them. -/
lemma mem_hexDigits_of_getLast? (front : List Char) {width n : ℕ} {c : Char}
    (h : c ∈ (front ++ Text.hexDigits width n).getLast?) : c ∈ Text.hexDigits width n := by
  rw [List.getLast?_append_of_ne_nil _ (hexDigits_ne_nil width n)] at h
  exact List.mem_of_getLast? h

/-- A digit is a letter or a decimal digit, so that no other character stands among digits. -/
lemma isAlphanum_digitChar {d : ℕ} (h : d < 16) :
    d.digitChar.isAlphanum = true ∧ Text.isBlank d.digitChar = false := by
  interval_cases d <;> decide

lemma isAlphanum_of_mem_toDigits (hbase : 1 < base) (hle : base ≤ 16) {c : Char}
    (h : c ∈ Nat.toDigits base n) : c.isAlphanum = true := by
  obtain ⟨d, hd, rfl⟩ := mem_toDigits hbase h
  exact (isAlphanum_digitChar (hd.trans_le hle)).1

lemma isAlphanum_of_mem_hexDigits {width n : ℕ} {c : Char} (h : c ∈ Text.hexDigits width n) :
    c.isAlphanum = true ∧ Text.isBlank c = false := by
  obtain ⟨d, hd, rfl⟩ := mem_hexDigits h
  exact isAlphanum_digitChar hd

lemma groupedDigits_cons {c : Char} (hc : c ≠ '_') (base acc : ℕ) (s : List Char) :
    Text.groupedDigits base acc (c :: s) =
      (Text.digitIn? base c).bind fun d => Text.groupedDigits base (acc * base + d) s := by
  rw [Text.groupedDigits.eq_def]
  split
  · rename_i heq
    cases heq
  · rename_i heq
    exact absurd (List.cons.inj heq).1 hc
  · rename_i heq
    obtain ⟨rfl, rfl⟩ := List.cons.inj heq
    rfl

/-- Digits are read one after another. -/
lemma groupedDigits_concat {s : List Char} {c : Char} (hs : '_' ∉ s) (hc : c ≠ '_') (base acc : ℕ) :
    Text.groupedDigits base acc (s ++ [c]) =
      (Text.groupedDigits base acc s).bind fun n =>
        (Text.digitIn? base c).map fun d => n * base + d := by
  induction s generalizing acc with
  | nil =>
    rw [List.nil_append, groupedDigits_cons hc]
    cases Text.digitIn? base c <;> rfl
  | cons d s ih =>
    rw [List.mem_cons, not_or] at hs
    rw [List.cons_append, groupedDigits_cons (Ne.symm hs.1), groupedDigits_cons (Ne.symm hs.1)]
    cases Text.digitIn? base d with
    | none => rfl
    | some v => exact ih hs.2 _

lemma digitChar_ne_underscore {d : ℕ} (h : d < 16) : d.digitChar ≠ '_' := by
  interval_cases d <;> decide

lemma groupedDigits_toDigits (hbase : 1 < base) (hle : base ≤ 16) (n : ℕ) :
    Text.groupedDigits base 0 (Nat.toDigits base n) = some n := by
  induction n using Nat.strongRecOn with
  | _ n ih =>
    rcases Nat.lt_or_ge n base with hn | hn
    · have hplain : n.digitChar ≠ '_' := digitChar_ne_underscore (hn.trans_le hle)
      rw [Nat.toDigits_of_lt_base hn, groupedDigits_cons hplain, digitIn?_digitChar hle hn]
      simp [Text.groupedDigits]
    · have hmod : n % base < base := Nat.mod_lt _ (by omega)
      have hplain : '_' ∉ Nat.toDigits base (n / base) := by
        intro hmem
        obtain ⟨d, hd, heq⟩ := mem_toDigits hbase hmem
        exact digitChar_ne_underscore (hd.trans_le hle) heq.symm
      rw [Nat.toDigits_of_base_le hbase hn,
        groupedDigits_concat hplain (digitChar_ne_underscore (hmod.trans_le hle)),
        ih (n / base) (Nat.div_lt_self (by omega) hbase), digitIn?_digitChar hle hmod]
      exact congrArg some (Nat.div_add_mod' n base)

/-- A row of digits is read from its first one on, which is no underscore. -/
lemma digits?_eq {s : List Char} (hs : s ≠ []) (hhead : ∀ c ∈ s.head?, c ≠ '_') :
    Text.digits? base s = Text.groupedDigits base 0 s := by
  cases s with
  | nil => exact absurd rfl hs
  | cons c rest =>
    rw [Text.digits?.eq_def]
    split
    · rename_i heq
      cases heq
    · rename_i heq
      exact absurd (List.cons.inj heq).1 (hhead c rfl)
    · rfl

/-- Digits read back to their number. -/
lemma digits?_toDigits (hbase : 1 < base) (hle : base ≤ 16) (n : ℕ) :
    Text.digits? base (Nat.toDigits base n) = some n := by
  rw [digits?_eq Nat.toDigits_ne_nil, groupedDigits_toDigits hbase hle]
  intro c hc
  obtain ⟨d, hd, rfl⟩ := mem_toDigits hbase (List.mem_of_mem_head? hc)
  exact digitChar_ne_underscore (hd.trans_le hle)

/-- Hexadecimal digits behind zeros read back to their number. -/
lemma digits?_hexDigits (width n : ℕ) : Text.digits? 16 (Text.hexDigits width n) = some n := by
  have hgrouped : ∀ k, Text.groupedDigits 16 0 (List.replicate k '0' ++ Nat.toDigits 16 n) =
      some n := by
    intro k
    induction k with
    | zero => exact groupedDigits_toDigits (by decide) le_rfl n
    | succ k ih =>
      rw [List.replicate_succ, List.cons_append, groupedDigits_cons (by decide)]
      exact ih
  rw [digits?_eq (hexDigits_ne_nil width n)]
  · exact hgrouped _
  · intro c hc
    obtain ⟨d, hd, rfl⟩ := mem_hexDigits (List.mem_of_mem_head? hc)
    exact digitChar_ne_underscore hd

end Digits

end AsmBridge
