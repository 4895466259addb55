import AsmBridge.Proofs.Data.Labels
import AsmBridge.Source.Unit
import Mathlib.Data.Int.Notation

/-!
# Constant data as an assembler lays them out

An assembler emits the bytes of data directives, the padding that alignment directives ask for
between them, and whatever other directives stand for. The data that a label finds are the bytes of
the data directives alone. So they are what the assembler lays out behind the label exactly if it
adds nothing to these bytes: if no other directive in the extent of the label emits anything, and
every alignment directive in front of data finds an aligned location.
-/

namespace AsmBridge

/-- What an assembler emits for directives that are not data directives. -/
structure Assembler where
  /-- So many bytes of padding, for an alignment directive. -/
  padding : Directive → ℕ → List UInt8
  length_padding : ∀ d n, (padding d n).length = n
  /-- The bytes of a directive that is neither a data nor an alignment directive. -/
  other : Directive → List UInt8

/-- The bytes that an alignment directive skips at a location: those up to the next multiple of its
alignment, but none if they are more than its third argument allows. -/
def Directive.skip (d : Directive) (location : ℕ) : ℕ :=
  match d.alignment with
  | .error _ => 0
  | .ok n =>
    let gap := (-(location : ℤ) % n).toNat
    match d.argv[2]?.bind fun a => Text.integer? .marked a.toList with
    | some limit => if 0 < limit ∧ limit < gap then 0 else gap
    | none => gap

namespace Assembler

/-- The bytes that a directive emits besides padding. -/
def bytes (as : Assembler) (d : Directive) : List UInt8 :=
  if Directive.isAlignmentName d.name then []
  else if Directive.isDataName d.name then d.decoded
  else as.other d

/-- The bytes of a row of directives from a location on, counted from the start of the data. Padding
is put in only where bytes follow. -/
def layOut (as : Assembler) (location : ℕ) : List Directive → List UInt8
  | [] => []
  | d :: ds =>
    if Directive.isAlignmentName d.name then
      let gap := as.padding d (d.skip location)
      let rest := as.layOut (location + gap.length) ds
      if rest.isEmpty then [] else gap ++ rest
    else as.bytes d ++ as.layOut (location + (as.bytes d).length) ds

/-- The directives behind a label up to the next switch or the next label behind bytes. -/
def extent (as : Assembler) (records : List Record) : List Directive :=
  DataIndex.extent (fun d => !(as.bytes d).isEmpty) false records

/-- A row of directives emits no more than the bytes of its data directives, if it begins at a
location. -/
structure AddsNothing (as : Assembler) (location : ℕ) (ds : List Directive) : Prop where
  other : ∀ d ∈ ds, Directive.isAlignmentName d.name = false →
    Directive.isDataName d.name = false → as.other d = []
  skip : ∀ front d back, ds = front ++ d :: back → Directive.isAlignmentName d.name = true →
    (∃ e ∈ back, e.decoded ≠ []) → d.skip (location + (front.flatMap (·.decoded)).length) = 0

variable {as : Assembler} {location : ℕ} {d : Directive} {ds : List Directive}

/-! ## Directives one by one -/

/-- The bytes of the three kinds of directives. -/
lemma bytes_cases (as : Assembler) (d : Directive) :
    (Directive.isAlignmentName d.name = true ∧ d.decoded = [] ∧ as.bytes d = []) ∨
      (Directive.isAlignmentName d.name = false ∧
        (Directive.isDataName d.name = true ∧ as.bytes d = d.decoded ∨
          Directive.isDataName d.name = false ∧ d.decoded = [] ∧ as.bytes d = as.other d)) := by
  rw [bytes]
  cases halign : Directive.isAlignmentName d.name with
  | true =>
    have hdata := Directive.isDataName_of_isAlignmentName halign
    exact .inl ⟨rfl, Directive.decoded_of_isDataName hdata, rfl⟩
  | false =>
    cases hdata : Directive.isDataName d.name with
    | true => exact .inr ⟨rfl, .inl ⟨rfl, rfl⟩⟩
    | false => exact .inr ⟨rfl, .inr ⟨rfl, Directive.decoded_of_isDataName hdata, rfl⟩⟩

lemma layOut_cons_of_isAlignmentName (h : Directive.isAlignmentName d.name = true) :
    as.layOut location (d :: ds) =
      if (as.layOut (location + d.skip location) ds).isEmpty then []
      else as.padding d (d.skip location) ++ as.layOut (location + d.skip location) ds := by
  rw [layOut, if_pos h]
  simp only [as.length_padding]

lemma layOut_cons_of_not (h : Directive.isAlignmentName d.name = false) :
    as.layOut location (d :: ds) =
      as.bytes d ++ as.layOut (location + (as.bytes d).length) ds := by
  rw [layOut, if_neg (by simp [h])]

/-- Nothing is laid out where no directive has bytes, wherever it begins. -/
lemma layOut_eq_nil_iff : as.layOut location ds = [] ↔ ∀ d ∈ ds, as.bytes d = [] := by
  induction ds generalizing location with
  | nil => simp [layOut]
  | cons d ds ih =>
    rw [List.forall_mem_cons]
    rcases as.bytes_cases d with ⟨halign, -, hbytes⟩ | ⟨halign, -⟩
    · rw [layOut_cons_of_isAlignmentName halign, hbytes]
      split_ifs with hempty
      · simpa [ih] using hempty
      · rw [List.isEmpty_iff] at hempty
        simp [hempty, mt ih.mpr hempty]
    · rw [layOut_cons_of_not halign, List.append_eq_nil_iff, ih]

/-- The bytes of data directives are all laid out. -/
lemma length_le_layOut (as : Assembler) (location : ℕ) (ds : List Directive) :
    (ds.flatMap (·.decoded)).length ≤ (as.layOut location ds).length := by
  induction ds generalizing location with
  | nil => simp
  | cons d ds ih =>
    rw [List.flatMap_cons, List.length_append]
    rcases as.bytes_cases d with ⟨halign, hdecoded, -⟩ | ⟨halign, hbytes⟩
    · rw [layOut_cons_of_isAlignmentName halign, hdecoded]
      have := ih (location + d.skip location)
      split_ifs with hempty
      · rw [List.isEmpty_iff.mp hempty] at this
        simpa using this
      · simp only [List.length_nil, List.length_append]
        omega
    · rw [layOut_cons_of_not halign, List.length_append]
      have := ih (location + (as.bytes d).length)
      rcases hbytes with ⟨-, hbytes⟩ | ⟨-, hdecoded, -⟩
      · rw [hbytes] at this ⊢
        omega
      · rw [hdecoded, List.length_nil]
        omega

/-- One directive more in front of a row that adds nothing. -/
lemma addsNothing_cons :
    as.AddsNothing location (d :: ds) ↔
      (Directive.isAlignmentName d.name = false → Directive.isDataName d.name = false →
        as.other d = []) ∧
      (Directive.isAlignmentName d.name = true → (∃ e ∈ ds, e.decoded ≠ []) →
        d.skip location = 0) ∧
      as.AddsNothing (location + d.decoded.length) ds := by
  constructor
  · rintro ⟨hother, hskip⟩
    obtain ⟨hd, hother⟩ := List.forall_mem_cons.mp hother
    refine ⟨hd, hskip [] d ds rfl, hother, fun front e back heq halign hback => ?_⟩
    have := hskip (d :: front) e back (congrArg (d :: ·) heq) halign hback
    rwa [List.flatMap_cons, List.length_append, ← Nat.add_assoc] at this
  · rintro ⟨hd, hfirst, hother, hskip⟩
    refine ⟨List.forall_mem_cons.mpr ⟨hd, hother⟩, fun front e back heq halign hback => ?_⟩
    cases front with
    | nil =>
      obtain ⟨rfl, rfl⟩ := List.cons_eq_cons.mp heq
      exact hfirst halign hback
    | cons d' front =>
      obtain ⟨rfl, rfl⟩ := List.cons_eq_cons.mp heq
      rw [List.flatMap_cons, List.length_append, ← Nat.add_assoc]
      exact hskip front e back rfl halign hback

/-! ## Rows of directives -/

/-- An alignment directive adds nothing in front of a row if no byte follows or it skips none. -/
lemma eq_layOut_cons_iff_of_isAlignmentName (h : Directive.isAlignmentName d.name = true) :
    ds.flatMap (·.decoded) = as.layOut location (d :: ds) ↔
      ((∃ e ∈ ds, e.decoded ≠ []) → d.skip location = 0) ∧
        ds.flatMap (·.decoded) = as.layOut location ds := by
  rw [layOut_cons_of_isAlignmentName h]
  constructor
  · intro heq
    split_ifs at heq with hempty
    · have hnil : as.layOut location ds = [] :=
        layOut_eq_nil_iff.mpr (layOut_eq_nil_iff.mp (List.isEmpty_iff.mp hempty))
      refine ⟨fun ⟨e, he, hne⟩ => absurd ?_ hne, heq.trans hnil.symm⟩
      exact List.flatMap_eq_nil_iff.mp heq e he
    · have hle := as.length_le_layOut (location + d.skip location) ds
      have hskip : d.skip location = 0 := by
        rw [heq, List.length_append, as.length_padding] at hle
        omega
      rw [hskip] at heq
      rw [List.eq_nil_of_length_eq_zero (as.length_padding d 0)] at heq
      exact ⟨fun _ => hskip, heq⟩
  · rintro ⟨hskip, heq⟩
    by_cases hsome : ∃ e ∈ ds, e.decoded ≠ []
    · rw [hskip hsome, List.eq_nil_of_length_eq_zero (as.length_padding d 0), Nat.add_zero, ← heq]
      split_ifs with hempty
      · exact List.isEmpty_iff.mp hempty
      · rfl
    · have hnil : ds.flatMap (·.decoded) = [] := by
        rw [List.flatMap_eq_nil_iff]
        intro e he
        by_contra hne
        exact hsome ⟨e, he, hne⟩
      have hlater : as.layOut (location + d.skip location) ds = [] :=
        layOut_eq_nil_iff.mpr (layOut_eq_nil_iff.mp (heq.symm.trans hnil))
      rw [hlater, hnil]
      rfl

/-- The bytes of the data directives are what is laid out exactly if nothing is added to them. -/
lemma eq_layOut_iff (as : Assembler) (location : ℕ) (ds : List Directive) :
    ds.flatMap (·.decoded) = as.layOut location ds ↔ as.AddsNothing location ds := by
  induction ds generalizing location with
  | nil =>
    refine ⟨fun _ => ⟨fun d hd => (nomatch hd), fun front d back heq => ?_⟩, fun _ => rfl⟩
    exact absurd heq.symm (by simp)
  | cons d ds ih =>
    rw [addsNothing_cons, List.flatMap_cons]
    rcases as.bytes_cases d with
      ⟨halign, hdecoded, -⟩ | ⟨halign, ⟨hdata, hbytes⟩ | ⟨hdata, hdecoded, hbytes⟩⟩
    · rw [hdecoded, List.nil_append, eq_layOut_cons_iff_of_isAlignmentName halign, ih]
      simp [halign]
    · rw [layOut_cons_of_not halign, hbytes, List.append_cancel_left_eq, ih]
      simp [halign, hdata]
    · rw [layOut_cons_of_not halign, hbytes, hdecoded, List.nil_append, ← ih]
      simp only [halign, hdata, true_implies, List.length_nil, Nat.add_zero, Bool.false_eq_true,
        false_implies, true_and]
      constructor
      · intro heq
        have hle := as.length_le_layOut (location + (as.other d).length) ds
        have hother : as.other d = [] := by
          rw [heq, List.length_append] at hle
          exact List.eq_nil_of_length_eq_zero (by omega)
        rw [hother] at heq
        exact ⟨hother, heq⟩
      · rintro ⟨hother, heq⟩
        rw [hother]
        exact heq

/-- If nothing is added in the extent of a label, the extent ends where the bytes of the assembler
end it. -/
lemma extent_eq {filled : Bool} {records : List Record}
    (h : ∀ d ∈ DataIndex.extent Directive.fills filled records,
      Directive.isAlignmentName d.name = false → Directive.isDataName d.name = false →
        as.other d = []) :
    DataIndex.extent (fun d => !(as.bytes d).isEmpty) filled records =
      DataIndex.extent Directive.fills filled records := by
  induction records generalizing filled with
  | nil => rfl
  | cons r records ih =>
    rw [DataIndex.extent] at h ⊢
    rw [DataIndex.extent]
    cases hcase : DataIndex.role r with
    | switch => rfl
    | label l =>
      rw [hcase] at h
      cases filled with
      | true => rfl
      | false => exact ih h
    | directive d =>
      rw [hcase] at h
      obtain ⟨hd, h⟩ := List.forall_mem_cons.mp h
      have hfills : (!(as.bytes d).isEmpty) = d.fills := by
        rw [Directive.fills]
        rcases as.bytes_cases d with
          ⟨-, hdecoded, hbytes⟩ | ⟨halign, ⟨-, hbytes⟩ | ⟨hdata, hdecoded, hbytes⟩⟩
        · rw [hdecoded, hbytes]
        · rw [hbytes]
        · rw [hdecoded, hbytes, hd halign hdata]
      dsimp only
      rw [hfills, ih h]
    | ignored =>
      rw [hcase] at h
      exact ih h

end Assembler

/-! ## Data that are found -/

/-- The data of a blob beside the records behind one of its labels. -/
structure Blob.IsBehind (b : Blob) (records : List Record) : Prop where
  data : b.data = (DataIndex.extent Directive.fills false records).flatMap (·.decoded)
  readable : ∀ d ∈ DataIndex.extent Directive.fills false records, d.IsReadable
  /-- The data are what an assembler lays out exactly if it adds nothing to them. -/
  exact_iff : ∀ as : Assembler,
    b.data = as.layOut 0 (DataIndex.extent Directive.fills false records) ↔
      as.AddsNothing 0 (DataIndex.extent Directive.fills false records)
  /-- In this case they reach as far as the bytes that it lays out for the label. -/
  extent_eq : ∀ as : Assembler,
    as.AddsNothing 0 (DataIndex.extent Directive.fills false records) →
      as.extent records = DataIndex.extent Directive.fills false records

/-- The data of a blob that is looked up have no problem. -/
lemma DataIndex.problem_of_lookup {x : DataIndex} {symbol : Option String} {b : Blob}
    (h : x.lookup symbol = .ok b) : b.problem = none := by
  obtain ⟨s, rfl, hfind⟩ := lookup_eq_ok h
  exact ((lookup_eq_ok_iff hfind).mp h).1

/-- Data that are looked up under a name are those behind the last label of read-only data that has
this name: the bytes of the data directives up to the next switch or the next label behind data, all
of them readable. They are what an assembler lays out there exactly if no other directive emits
anything and no alignment directive skips bytes in front of data. -/
theorem DataIndex.lookup_isBehind {records : List Record} {x : DataIndex} {name : String} {b : Blob}
    (hx : ofRecords records = .ok x) (hb : x.lookup (some name) = .ok b) :
    ∃ front l back, records = front ++ .label l :: back ∧
      Section.isReadOnly (l.sect.getD "") = true ∧ l.name = name ∧
      (∀ r ∈ back, name? r ≠ some name) ∧ b.IsBehind back := by
  obtain ⟨n, hn, hfind⟩ := lookup_eq_ok hb
  obtain rfl := Option.some.inj hn
  obtain ⟨front, l, back, rfl, hl, rfl, hother⟩ := exists_label_of_find? hx hfind
  obtain ⟨c, hc, hdata, hreadable⟩ := find?_of_label hx hl hother
  obtain rfl := Option.some.inj (hfind.symm.trans hc)
  refine ⟨front, l, back, rfl, hl, rfl, hother, hdata, hreadable (problem_of_lookup hb), ?_, ?_⟩
  · intro as
    rw [hdata]
    exact as.eq_layOut_iff 0 _
  · intro as has
    exact Assembler.extent_eq has.other

/-- Two labels of one blob, in which an alignment directive stands between data that are aligned. -/
theorem DataIndex.lookup_isBehind_of_aligned :
    let text := String.join [
      ".section .rodata\n", "A: B: .quad 1\n", ".p2align 3\n", ".long 5\n", "C: .asciz \"x\"\n",
      ".text\n"]
    ∃ records x b, Source.readUnit text = .ok records ∧ ofRecords records = .ok x ∧
      x.lookup (some "B") = .ok b ∧
      ∃ front l back, records = front ++ .label l :: back ∧
        Section.isReadOnly (l.sect.getD "") = true ∧ l.name = "B" ∧
        (∀ r ∈ back, name? r ≠ some "B") ∧ b.IsBehind back := by
  intro text
  obtain ⟨records, hread, hx⟩ : ∃ records, Source.readUnit text = .ok records ∧
      (ofRecords records).toOption.any (fun x => decide
        ((x.lookup (some "B")).toOption.any (fun b => decide
          (b.data = [1, 0, 0, 0, 0, 0, 0, 0, 5, 0, 0, 0])) = true)) = true :=
    exists_ok_of_any (by decide +kernel)
  obtain ⟨x, hx, hb⟩ := exists_ok_of_any hx
  obtain ⟨b, hb, -⟩ := exists_ok_of_any hb
  exact ⟨records, x, b, hread, hx, hb, lookup_isBehind hx hb⟩

/-- Two labels for which no assembler lays out what is looked up. Behind the first one an alignment
directive stands between a byte and a word and is passed over; behind the second one stands a
directive that emits sixteen bytes but is no data directive. -/
theorem DataIndex.not_lookup_layOut :
    let text := String.join [
      ".section .rodata\n", ".p2align 2\n", "L: .byte 1\n", ".p2align 2\n", ".long 5\n",
      "M: .long 1\n", ".octa 1\n", ".text\n"]
    ∃ records x, Source.readUnit text = .ok records ∧ ofRecords records = .ok x ∧
      (∃ front l back b, records = front ++ .label l :: back ∧ l.name = "L" ∧
        x.lookup (some "L") = .ok b ∧ b.align = 4 ∧
        ∀ as : Assembler, b.data ≠ as.layOut 0 (as.extent back)) ∧
      ∃ front l back b, records = front ++ .label l :: back ∧ l.name = "M" ∧
        x.lookup (some "M") = .ok b ∧
        ∀ as : Assembler, (∀ d : Directive, d.name = ".octa" → as.other d ≠ []) →
          b.data ≠ as.layOut 0 (as.extent back) := by
  intro text
  let directive (name args : String) (line : ℕ) : Directive :=
    ⟨name, args, some line, some ".rodata"⟩
  let byte := directive ".byte" "1" 3
  let align := directive ".p2align" "2" 4
  let five := directive ".long" "5" 5
  let one := directive ".long" "1" 6
  let octa := directive ".octa" "1" 7
  let l : Label := ⟨"L", some 3, some ".rodata"⟩
  let m : Label := ⟨"M", some 6, some ".rodata"⟩
  let front : List Record :=
    [.directive (directive ".section" ".rodata" 1), .directive (directive ".p2align" "2" 2)]
  let back : List Record :=
    [.directive one, .directive octa, .directive ⟨".text", "", some 8, some ".text"⟩]
  let mid : List Record := [.directive byte, .directive align, .directive five]
  obtain ⟨records, hread, hrecords, hx⟩ : ∃ records, Source.readUnit text = .ok records ∧
      records = front ++ .label l :: (mid ++ .label m :: back) ∧
      (ofRecords records).toOption.any (fun x => decide
        ((x.lookup (some "L")).toOption.any (fun b => decide
            (b.data = [1, 5, 0, 0, 0] ∧ b.align = 4)) = true ∧
          (x.lookup (some "M")).toOption.any (fun b => decide
            (b.data = [1, 0, 0, 0])) = true)) = true :=
    exists_ok_of_any (by decide +kernel)
  obtain ⟨x, hx, hb, hc⟩ := exists_ok_of_any hx
  obtain ⟨b, hb, hbdata, halign⟩ := exists_ok_of_any hb
  obtain ⟨c, hc, hcdata⟩ := exists_ok_of_any hc
  refine ⟨records, x, hread, hx, ⟨front, l, mid ++ .label m :: back, b, hrecords, rfl, hb, halign,
    fun as heq => ?_⟩, front ++ .label l :: mid, m, back, c, hrecords.trans (by simp), rfl, hc,
    fun as hocta heq => ?_⟩
  · have hcode : extent Directive.fills false (mid ++ .label m :: back) = [byte, align, five] := by
      decide +kernel
    have hkinds : ∀ d ∈ [byte, align, five], Directive.isAlignmentName d.name = true ∨
        Directive.isDataName d.name = true := by decide +kernel
    have hextent : as.extent (mid ++ .label m :: back) = [byte, align, five] := by
      rw [← hcode]
      refine Assembler.extent_eq fun d hd halign hdata => ?_
      rw [hcode] at hd
      rcases hkinds d hd with h | h
      · exact nomatch halign.symm.trans h
      · exact nomatch hdata.symm.trans h
    have hdecoded : [1, 5, 0, 0, 0] = [byte, align, five].flatMap (·.decoded) := by
      decide +kernel
    rw [hextent, hbdata, hdecoded, as.eq_layOut_iff] at heq
    have hskip := heq.skip [byte] align [five] rfl rfl ⟨five, List.mem_cons_self, by decide +kernel⟩
    exact absurd hskip (by decide +kernel)
  · have hroles : back.map role = [.directive one, .directive octa, .switch] := by decide +kernel
    obtain ⟨hone, hrest⟩ := List.cons_eq_cons.mp hroles
    obtain ⟨hocta', hrest⟩ := List.cons_eq_cons.mp hrest
    obtain ⟨hswitch, -⟩ := List.cons_eq_cons.mp hrest
    have hextent : as.extent back = [one, octa] := by
      simp only [Assembler.extent, back, extent, hone, hocta', hswitch]
    have hdecoded : [1, 0, 0, 0] = [one, octa].flatMap (·.decoded) := by decide +kernel
    rw [hextent, hcdata, hdecoded, as.eq_layOut_iff] at heq
    exact hocta octa rfl (heq.other octa (by simp) rfl rfl)

end AsmBridge
