import AsmBridge.Proofs.Outcome

/-!
# Computations that mirror each other

A computation mirrors another one if it yields the image of the value that the other one yields, and
fails, with a related error, where that fails (`Mirrors`). The lemmas of this file carry this over
from parts to wholes. Two computations with one mirror image yield values with one image
(`Mirrors.exists_ok_of_ok`).
-/

namespace AsmBridge

variable {ε δ α β γ α' β' γ' : Type} {E : ε → δ → Prop}

/-- The second computation yields the image of the value of the first one, or both fail, with
related errors. -/
inductive Mirrors (E : ε → δ → Prop) (g : α → α') : Except ε α → Except δ α' → Prop
  | ok (a : α) : Mirrors E g (.ok a) (.ok (g a))
  | error {e : ε} {e' : δ} (h : E e e') : Mirrors E g (.error e) (.error e')

/-- Two decisions on one condition of which the one yields images of what the other one yields. -/
lemma ite_eq_apply_ite {p q : Prop} [Decidable p] [Decidable q] (h : q ↔ p) {g : α → β} {a b : α}
    {a' b' : β} (ha : a' = g a) (hb : b' = g b) :
    (if q then a' else b') = g (if p then a else b) := by
  by_cases hp : p
  · rw [if_pos hp, if_pos (h.mpr hp), ha]
  · rw [if_neg hp, if_neg fun hq => hp (h.mp hq), hb]

namespace Mirrors

variable {g : α → α'} {m : β → β'} {x y : Except ε α} {z : Except δ α'}

lemma eq_ok (h : Mirrors E g x z) {a : α} (hx : x = .ok a) : z = .ok (g a) := by
  cases h with
  | ok b =>
    obtain rfl := Except.ok.inj hx
    rfl
  | error _ => cases hx

lemma exists_ok (h : Mirrors E g x z) {b : α'} (hz : z = .ok b) : ∃ a, x = .ok a ∧ g a = b := by
  cases h with
  | ok a => exact ⟨a, rfl, Except.ok.inj hz⟩
  | error _ => cases hz

/-- Of two computations with one mirror image the second one yields a value if the first one does,
with the same image. -/
lemma exists_ok_of_ok (hx : Mirrors E g x z) (hy : Mirrors E g y z) {a : α} (h : x = .ok a) :
    ∃ b, y = .ok b ∧ g b = g a :=
  hy.exists_ok (hx.eq_ok h)

/-- A computation is its own mirror image if its errors are related to themselves. -/
lemma refl {E : ε → ε → Prop} (h : ∀ e, x = .error e → E e e) : Mirrors E id x x := by
  cases x with
  | ok a => exact .ok a
  | error e => exact .error (h e rfl)

lemma bind (h : Mirrors E g x z) {k : α → Except ε β} {k' : α' → Except δ β'}
    (hk : ∀ a, x = .ok a → Mirrors E m (k a) (k' (g a))) : Mirrors E m (x >>= k) (z >>= k') := by
  cases h with
  | ok a => exact hk a rfl
  | error h => exact .error h

lemma map (h : Mirrors E g x z) {k : α → β} {k' : α' → β'} (hk : ∀ a, k' (g a) = m (k a)) :
    Mirrors E m (x.map k) (z.map k') := by
  cases h with
  | ok a =>
    change Mirrors E m (.ok (k a)) (.ok (k' (g a)))
    rw [hk]
    exact .ok _
  | error h => exact .error h

/-- What is made of equal values is equal. -/
lemma map_same {z : Except δ α} (h : Mirrors E id x z) (k : α → β) :
    Mirrors E id (x.map k) (z.map k) :=
  h.map fun _ => rfl

lemma mapError {ζ η : Type} {F : ζ → η → Prop} (h : Mirrors E g x z) {k : ε → ζ} {k' : δ → η}
    (hk : ∀ e e', E e e' → F (k e) (k' e')) : Mirrors F g (x.mapError k) (z.mapError k') := by
  cases h with
  | ok a => exact .ok a
  | error h => exact .error (hk _ _ h)

/-- Two decisions on one condition. -/
lemma ite {p q : Prop} [Decidable p] [Decidable q] (h : p ↔ q) {y : Except ε α} {w : Except δ α'}
    (hx : p → Mirrors E g x z) (hy : ¬p → Mirrors E g y w) :
    Mirrors E g (if p then x else y) (if q then z else w) := by
  by_cases hp : p
  · rw [if_pos hp, if_pos (h.mp hp)]
    exact hx hp
  · rw [if_neg hp, if_neg fun hq => hp (h.mpr hq)]
    exact hy hp

/-- A fold mirrors another one over the same list if its steps do. -/
lemma foldlM {f : β → α → Except ε β} {f' : β' → α' → Except δ β'} {l : List α}
    (h : ∀ b, ∀ a ∈ l, Mirrors E m (f b a) (f' (m b) (g a))) (b : β) :
    Mirrors E m (l.foldlM f b) ((l.map g).foldlM f' (m b)) := by
  induction l generalizing b with
  | nil => exact .ok b
  | cons a l ih =>
    rw [List.map_cons, List.foldlM_cons, List.foldlM_cons]
    exact (h b a List.mem_cons_self).bind fun c _ =>
      ih (fun b a ha => h b a (List.mem_cons_of_mem _ ha)) c

/-- A fold over one list. -/
lemma foldlM_same {f : β → α → Except ε β} {f' : β' → α → Except δ β'} {l : List α}
    (h : ∀ b, ∀ a ∈ l, Mirrors E m (f b a) (f' (m b) a)) (b : β) :
    Mirrors E m (l.foldlM f b) (l.foldlM f' (m b)) := by
  have hfold := foldlM (g := id) h b
  rwa [List.map_id] at hfold

lemma mapM {f : α → Except ε β} {f' : α' → Except δ β'} {l : List α}
    (h : ∀ a ∈ l, Mirrors E m (f a) (f' (g a))) :
    Mirrors E (List.map m) (l.mapM f) ((l.map g).mapM f') := by
  induction l with
  | nil => exact .ok []
  | cons a l ih =>
    obtain ⟨ha, hl⟩ := List.forall_mem_cons.mp h
    rw [List.map_cons, List.mapM_cons, List.mapM_cons]
    exact ha.bind fun b _ => (ih hl).bind fun bs _ => .ok (b :: bs)

end Mirrors

end AsmBridge
