import AsmBridge.Proofs.Source.Addresses
import Mathlib.Data.List.Chain

/-!
# Sections of a unit

Only a directive changes the section: every other record of a unit is in the section of the record
before it (`readUnit_isSectioned`). From a record in a section of instructions on, all records are
in such sections until a directive is not (`isText_of_isSectioned`).
-/

namespace AsmBridge

namespace Record

/-- The section of a record. -/
def sect : Record → Option String
  | .label l => l.sect
  | .directive d => d.sect
  | .instruction i => i.sect

/-- The record stands in a section of instructions. -/
def isText (r : Record) : Bool := (r.sect.map Section.isText).getD false

def isDirective : Record → Bool
  | .directive _ => true
  | _ => false

end Record

/-- Every record but directives is in the section of the one before it. -/
def IsSectioned (rs : List Record) : Prop :=
  rs.IsChain fun r r' => r'.isDirective = true ∨ r'.sect = r.sect

/-- A record behind one in a section of instructions is in such a section, if all directives between
them are, and it is one of these or no directive itself. -/
lemma isText_of_isSectioned {r₀ r : Record} {front back : List Record}
    (h : IsSectioned (r₀ :: (front ++ r :: back))) (h₀ : r₀.isText = true)
    (hfront : ∀ d ∈ front, d.isDirective = true → d.isText = true) (hr : r.isDirective = false) :
    r.isText = true := by
  have hnext : ∀ {a b : Record}, a.isText = true → (b.isDirective = true → b.isText = true) →
      (b.isDirective = true ∨ b.sect = a.sect) → b.isText = true := by
    rintro a b ha hb (hdirective | hsect)
    · exact hb hdirective
    · rwa [Record.isText, hsect]
  induction front generalizing r₀ with
  | nil =>
    obtain ⟨hrel, -⟩ := List.isChain_cons_cons.mp h
    exact hnext h₀ (fun hd => nomatch hr.symm.trans hd) hrel
  | cons b front ih =>
    obtain ⟨hb, hfront⟩ := List.forall_mem_cons.mp hfront
    obtain ⟨hrel, hrest⟩ := List.isChain_cons_cons.mp h
    exact ih hrest (hnext h₀ hb hrel) hfront

namespace Source.State

/-- The records, last first, are such that only directives change the section, and the last one is
in the section in effect. -/
structure IsSectioned (s : State) : Prop where
  last : ∀ r ∈ s.records.head?, r.sect = some s.sect
  chain : s.records.IsChain fun r' r => r'.isDirective = true ∨ r'.sect = r.sect

variable {s s' : State}

/-- One record more. -/
lemma IsSectioned.push (hs : s.IsSectioned) {r : Record} (hrecords : s'.records = r :: s.records)
    (hsect : r.sect = some s'.sect) (h : r.isDirective = true ∨ s'.sect = s.sect) :
    s'.IsSectioned := by
  refine ⟨?_, ?_⟩
  · rw [hrecords]
    rintro r' ⟨⟩
    exact hsect
  · rw [hrecords]
    refine List.isChain_cons.mpr ⟨fun r' hr' => ?_, hs.chain⟩
    rcases h with hdirective | heq
    · exact .inl hdirective
    · exact .inr (by rw [hsect, heq, hs.last r' hr'])

/-- One line more. -/
lemma IsSectioned.line (hs : s.IsSectioned) {p : List Char × ℕ} (h : s.line p = .ok s') :
    s'.IsSectioned := by
  obtain ⟨source, n⟩ := p
  have hlabels : (s.withLabels source n).IsSectioned :=
    withLabels_induction (fun _ _ _ hs => hs.push rfl rfl (.inr rfl)) hs
  cases line_eq_ok.mp h with
  | labels _ => exact hlabels
  | directive _ hswitch _ =>
    exact hlabels.push (congrArg _ (switch_records hswitch)) rfl (.inl rfl)
  | instruction _ _ _ => exact hlabels.push rfl rfl (.inr rfl)

end Source.State

/-- In a unit only directives change the section. -/
lemma readUnit_isSectioned {text : String} {records : List Record}
    (h : Source.readUnit text = .ok records) : IsSectioned records := by
  obtain ⟨s, hfold, rfl⟩ := map_eq_ok.mp h
  have hs := foldlM_induction Source.State.IsSectioned (fun _ _ _ hline hs => hs.line hline) hfold
    ⟨fun r hr => (nomatch hr), .nil⟩
  exact List.isChain_reverse.mpr hs.chain

end AsmBridge
