import AsmBridge.Data.Index
import AsmBridge.Proofs.Outcome
import Mathlib.Data.Int.Notation

/-!
# Data that is given up

A data directive that cannot be read is noted as a problem of its blob, but for three exceptions: a
hexadecimal escape without digits, a number beyond the range of its format, and a filling of more
bytes than there is room for. With these the unit is given up without a report, and so it is with an
alignment that is none and with an entity size that is too long to be read (`failsWith_ofRecords`).
-/

namespace AsmBridge

/-- The body of a literal has a hexadecimal escape without digits. -/
def Literal.HasEmptyEscape (s : List Char) : Prop :=
  ∃ front x rest, s = front ++ '\\' :: x :: rest ∧ (x = 'x' ∨ x = 'X') ∧
    ∀ c ∈ rest.head?, Text.digitIn? 16 c = none

namespace Directive

/-- The text between the quotes of a string argument. -/
def literalBody (arg : String) : List Char := (arg.toList.drop 1).dropLast

/-- Why a unit is given up with the bytes of a directive. -/
inductive StopsData (d : Directive) : Stop → Prop
  /-- A string has a hexadecimal escape without digits. -/
  | escape {terminated : Bool} {arg : String} (hname : terminated? d.name = some terminated)
    (harg : arg ∈ d.argv) (h : Literal.HasEmptyEscape (literalBody arg)) : StopsData d .escapeEmpty
  /-- A finite number rounds to infinity. -/
  | float {f : FloatFormat} {arg : String} {v : Text.Decimal}
    (hname : floatFormat? d.name = some f) (harg : arg ∈ d.argv)
    (hv : Text.decimal? arg.toList = some v)
    (h : FloatFormat.convert? .double f (FloatFormat.double.ofDecimal v) = none) :
    StopsData d .floatTooLarge
  /-- There is no room for so many bytes. -/
  | fill {count : String} {rest : List String} {n : ℤ} {s : Stop} (hname : isFill d.name = true)
    (hargs : d.argv = count :: rest) (hn : plainInteger count = .ok n)
    (h : roomFor n = .error s) : StopsData d s

end Directive

/-- Why a unit is given up while its data are indexed. -/
inductive StopsIndex (rs : List Record) : Stop → Prop
  /-- The name of a section holds an entity size that is too long to be read. -/
  | entity {d : Directive} {ds : List Char} (hd : .directive d ∈ rs)
    (hswitch : DataIndex.sectionSwitches.contains d.name = true)
    (hsize : Section.sizeInName? (d.sect.getD "").toList = some ds)
    (hlong : Text.digitLimit < ds.length) : StopsIndex rs .numberUnreadable
  /-- An alignment is none. -/
  | alignment {d : Directive} {s : Stop} (hd : .directive d ∈ rs)
    (hname : Directive.isAlignmentName d.name = true) (h : d.alignment = .error s) :
    StopsIndex rs s
  /-- The bytes of a directive cannot be had. -/
  | data {d : Directive} {s : Stop} (hd : .directive d ∈ rs) (h : d.StopsData s) : StopsIndex rs s

/-- The fault is a defect, or the unit is given up with it while its data are indexed. -/
def IsIndexFault (rs : List Record) (e : Fault) : Prop :=
  (∃ d, e = .defect d) ∨ ∃ s, e = .stop s ∧ StopsIndex rs s

/-! ## String literals -/

namespace Literal

/-- The error gives the unit up only for the condition. -/
def StopsFor (cond : Prop) (e : DataError) : Prop := ∀ s, e = .stop s → s = .escapeEmpty ∧ cond

lemma failsWith_byte (cond : Prop) (c : Char) : FailsWith (StopsFor cond) (byte c) := by
  unfold byte
  split
  · exact failsWith_ok _
  · exact failsWith_error fun s hs => nomatch hs

/-- An escape, given by the text behind the backslash. -/
lemma failsWith_escape (s : List Char) :
    FailsWith (StopsFor (HasEmptyEscape ('\\' :: s))) (escape s) := by
  unfold escape
  split
  · exact failsWith_error (by rintro s ⟨⟩)
  · rename_i c rest
    split
    · exact failsWith_ok _
    · split
      · rename_i hx
        dsimp only
        split
        · rename_i hempty
          refine failsWith_error fun s hs => ⟨(DataError.stop.inj hs).symm, ?_⟩
          refine ⟨[], c, rest, rfl, by simpa using hx, fun d hd => ?_⟩
          obtain ⟨more, rfl⟩ := List.head?_eq_some_iff.mp hd
          rw [List.length_cons, digitRun] at hempty
          split at hempty
          · cases hempty
          · rename_i hdigit
            simpa using hdigit
        · exact failsWith_ok _
      · split
        · exact failsWith_ok _
        · exact (failsWith_byte _ c).map _

/-- What follows an escape is the end of the text. -/
lemma suffix_of_escape {s more : List Char} {b : UInt8} (h : escape s = .ok (b, more)) :
    more <:+ s := by
  unfold escape at h
  split at h
  · cases h
  · rename_i c rest
    have hrest : rest <:+ c :: rest := List.suffix_cons c rest
    split at h
    · obtain ⟨-, rfl⟩ := Prod.mk.inj (Except.ok.inj h)
      exact hrest
    · split at h
      · dsimp only at h
        split at h
        · cases h
        · obtain ⟨-, rfl⟩ := Prod.mk.inj (Except.ok.inj h)
          exact (List.drop_suffix _ _).trans hrest
      · split at h
        · obtain ⟨-, rfl⟩ := Prod.mk.inj (Except.ok.inj h)
          exact (List.drop_suffix _ _).trans hrest
        · obtain ⟨b', -, heq⟩ := map_eq_ok.mp h
          obtain ⟨-, rfl⟩ := Prod.mk.inj heq
          exact hrest

/-- The bytes of the body of a literal. -/
lemma failsWith_bytes (s : List Char) : FailsWith (StopsFor (HasEmptyEscape s)) (bytes s) := by
  have hmono : ∀ {s t : List Char} {e : DataError}, s <:+ t →
      StopsFor (HasEmptyEscape s) e → StopsFor (HasEmptyEscape t) e := by
    rintro s _ e ⟨back, rfl⟩ he q hq
    obtain ⟨rfl, front, x, rest, rfl, hx, hrest⟩ := he q hq
    exact ⟨rfl, back ++ front, x, rest, by rw [List.append_assoc], hx, hrest⟩
  induction s using bytes.induct with
  | case1 =>
    rw [bytes]
    exact failsWith_ok _
  | case2 c rest hc e he =>
    obtain rfl := beq_iff_eq.mp hc
    have hbytes : bytes ('\\' :: rest) = .error e := by
      rw [bytes, if_pos hc]
      split
      · rename_i e' he'
        rw [Except.error.inj (he'.symm.trans he)]
      · rename_i b more hok
        cases hok.symm.trans he
    rw [hbytes]
    exact failsWith_error (failsWith_escape rest e he)
  | case3 c rest hc b more h hlt ih =>
    obtain rfl := beq_iff_eq.mp hc
    have hbytes : bytes ('\\' :: rest) = (bytes more).map (b :: ·) := by
      rw [bytes, if_pos hc]
      split
      · rename_i e he
        cases he.symm.trans h
      · rename_i b' more' hok
        obtain ⟨rfl, rfl⟩ := Prod.mk.inj (Except.ok.inj (hok.symm.trans h))
        rfl
    rw [hbytes]
    exact (ih.imp fun e he => hmono ((suffix_of_escape h).trans (List.suffix_cons _ _)) he).map _
  | case4 c rest hc ih =>
    rw [bytes, if_neg hc]
    refine (failsWith_byte _ c).bind fun b _ => FailsWith.bind ?_ fun bs _ => failsWith_ok _
    exact ih.imp fun e he => hmono (List.suffix_cons c rest) he

end Literal

/-! ## Directives -/

namespace Directive

/-- The error gives the unit up only if it is given up with the bytes of the directive. -/
def StopsDataWith (d : Directive) (e : DataError) : Prop := ∀ s, e = .stop s → d.StopsData s

/-- The bytes of a directive. -/
lemma failsWith_bytes (d : Directive) : FailsWith d.StopsDataWith d.bytes := by
  have hinteger : ∀ (radix : Text.Radix) (arg : String), FailsWith d.StopsDataWith
      ((Text.integer radix arg.toList).mapError (integerError arg)) := by
    intro radix arg e he s hs
    obtain ⟨n, -, rfl⟩ := mapError_eq_error.mp he
    cases n <;> cases hs
  unfold bytes
  split
  · refine FailsWith.map (failsWith_mapM fun arg _ => FailsWith.map ?_ _) _
    exact hinteger _ arg
  · rename_i f hname _
    refine FailsWith.map (failsWith_mapM fun arg harg => ?_) _
    unfold floatBytes
    split
    · exact failsWith_error fun s hs => nomatch hs
    · rename_i v hv
      dsimp only
      split
      · exact failsWith_ok _
      · split
        · exact failsWith_ok _
        · rename_i h
          refine failsWith_error fun s hs => ?_
          obtain rfl := DataError.stop.inj hs
          exact .float hname harg hv h
  · rename_i terminated hname _ _
    refine FailsWith.map (failsWith_mapM fun arg harg => ?_) _
    unfold stringBytes
    dsimp only
    split
    · refine FailsWith.map ((Literal.failsWith_bytes _).imp fun e he s hs => ?_) _
      obtain ⟨rfl, hempty⟩ := he s hs
      exact .escape hname harg hempty
    · exact failsWith_error fun s hs => nomatch hs
  · split
    · rename_i hname
      unfold fillBytes
      split
      · exact failsWith_error fun s hs => nomatch hs
      · rename_i count rest hargs
        have hfill : FailsWith d.StopsDataWith ((rest.head?.map plainInteger).getD (.ok 0)) := by
          cases rest.head? with
          | none => exact failsWith_ok _
          | some arg => exact hinteger _ arg
        refine hfill.bind fun fill _ => FailsWith.bind (hinteger _ count) fun n hn => ?_
        refine FailsWith.bind ?_ fun size _ => failsWith_ok _
        intro e he s hs
        obtain ⟨s', hs', rfl⟩ := mapError_eq_error.mp he
        obtain rfl := DataError.stop.inj hs
        exact .fill hname hargs hn hs'
    · exact failsWith_error fun s hs => nomatch hs

/-- The entity size that a directive gives. -/
lemma failsWith_entitySize (d : Directive) : FailsWith (fun s => s = .numberUnreadable ∧
    ∃ ds, Section.sizeInName? (d.sect.getD "").toList = some ds ∧ Text.digitLimit < ds.length)
    d.entitySize := by
  unfold entitySize
  dsimp only
  split
  · exact failsWith_ok _
  · exact failsWith_ok _
  · rename_i h
    refine failsWith_error ⟨rfl, ?_⟩
    unfold Section.entitySize at h
    split at h
    · rename_i ds hds
      unfold Text.plainDecimal at h
      split at h
      · rename_i hlong
        exact ⟨ds, hds, hlong⟩
      · cases h
    · cases h

end Directive

/-! ## The index of a unit -/

namespace DataIndex

variable {rs : List Record}

/-- One record more. -/
lemma failsWith_record {r : Record} (hr : r ∈ rs) (s : State) :
    FailsWith (IsIndexFault rs) (s.record r) := by
  unfold State.record
  split
  · rename_i d hswitches
    refine FailsWith.bind ?_ fun entity _ => failsWith_ok _
    refine (d.failsWith_entitySize).mapError ?_
    rintro s ⟨rfl, ds, hsize, hlong⟩
    have hd : r = .directive d ∧ sectionSwitches.contains d.name = true := by
      cases r with
      | directive e =>
        rw [switches] at hswitches
        split at hswitches
        · rename_i hname
          obtain rfl := Option.some.inj hswitches
          exact ⟨rfl, hname⟩
        · cases hswitches
      | _ => cases hswitches
    exact .inr ⟨_, rfl, .entity (hd.1 ▸ hr) hd.2 hsize hlong⟩
  · split
    · split
      · exact failsWith_ok _
      · rename_i d _ _
        unfold State.directive
        split
        · rename_i hname
          split
          · exact failsWith_ok _
          · rename_i e he
            exact failsWith_error (.inr ⟨_, rfl, .alignment hr hname he⟩)
        · split
          · split
            · rename_i last rest hblobs
              refine FailsWith.bind ?_ fun blob _ => failsWith_ok _
              unfold Blob.extend
              split
              · exact failsWith_ok _
              · rename_i e he
                exact failsWith_error (.inr ⟨_, rfl, .data hr (d.failsWith_bytes _ he _ rfl)⟩)
              · exact failsWith_ok _
            · exact failsWith_ok _
          · exact failsWith_ok _
      · exact failsWith_error (.inl ⟨_, rfl⟩)
    · split
      · split <;> exact failsWith_ok _
      · exact failsWith_ok _

/-- A unit whose data are not indexed has a defect or is given up. -/
lemma failsWith_ofRecords (rs : List Record) : FailsWith (IsIndexFault rs) (ofRecords rs) :=
  (failsWith_foldlM (fun _ hr s => failsWith_record hr s) _).map _

end DataIndex

end AsmBridge
