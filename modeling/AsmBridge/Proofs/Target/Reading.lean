import AsmBridge.Conversion.Unit
import AsmBridge.Proofs.Outcome
import AsmBridge.Proofs.Target.Pieces
import AsmBridge.Proofs.Text.Cut
import AsmBridge.Proofs.Text.Digits

/-!
# Reading a listing

A listing says what is left of its lines without comments and without blank lines, where a data
literal says the bytes that it stands for, lowest first. `readListing` reads it so. The line of
machine code reads as the code, whatever the style of the listing (`readLine_codeLine`): the
literals tile the code without loss, each reads back to its bytes, and neither the blanks nor the
statement behind them are read. So a listing reads the same in every style
(`readListing_renderUnit`).
-/

namespace AsmBridge

/-- What a line of a listing says, piece by piece. -/
inductive ListingToken
  /-- A byte of a data literal. -/
  | byte (b : UInt8)
  /-- A statement that is no data literal, as it stands. -/
  | other (text : List Char)
deriving DecidableEq

/-- The text in front of the first comment. -/
def beforeComment : List Char → List Char
  | '/' :: '/' :: _ => []
  | c :: rest => c :: beforeComment rest
  | [] => []

/-- The bytes of a data literal, lowest first. -/
def literalBytes? (s : List Char) : Option (List UInt8) :=
  literalWidths.findSome? fun p =>
    (Text.after? (p.2 ++ " $0x") s).bind fun digits =>
      (Text.digits? 16 digits).map (littleEndian p.1)

/-- What a statement says: the bytes of a data literal, or itself. -/
def readStatement (s : List Char) : List ListingToken :=
  match literalBytes? (Text.trim s) with
  | some bytes => bytes.map .byte
  | none => [.other s]

/-- What a line says without its comment and the blanks before that; a blank line says nothing. -/
def readLine (line : List Char) : List ListingToken :=
  let s := Text.trimRight (beforeComment line)
  if s.isEmpty then [] else (s.splitOn ';').flatMap readStatement

/-- What the lines of a listing say that say something. -/
def readListing (text : List Char) : List (List ListingToken) :=
  ((text.splitOn '\n').map readLine).filter (!·.isEmpty)

/-! ## Comments and lines -/

section Lines

variable {s t : List Char}

lemma beforeComment_cons {c : Char} (hc : c ≠ '/') : beforeComment (c :: s) = c :: beforeComment s := by
  rw [beforeComment.eq_def]
  split
  · rename_i heq
    exact absurd (List.cons.inj heq).1 hc
  · rename_i heq
    obtain ⟨rfl, rfl⟩ := List.cons.inj heq
    rfl
  · rename_i heq
    cases heq

/-- What stands in front of a comment. -/
lemma beforeComment_append (hs : '/' ∉ s) : beforeComment (s ++ '/' :: '/' :: t) = s := by
  induction s with
  | nil => rfl
  | cons c s ih =>
    rw [List.mem_cons, not_or] at hs
    rw [List.cons_append, beforeComment_cons (Ne.symm hs.1), ih hs.2]

lemma beforeComment_eq_self (hs : '/' ∉ s) : beforeComment s = s := by
  induction s with
  | nil => rfl
  | cons c s ih =>
    rw [List.mem_cons, not_or] at hs
    rw [beforeComment_cons (Ne.symm hs.1), ih hs.2]

/-- One text behind another one says what both say. -/
lemma readListing_append (s t : List Char) :
    readListing (s ++ '\n' :: t) = readListing s ++ readListing t := by
  rw [readListing, List.splitOn_append_cons_self, List.map_append, List.filter_append]
  rfl

/-- A text without a line break is a line. -/
lemma readListing_line (h : '\n' ∉ s) :
    readListing s = [readLine s].filter (!·.isEmpty) := by
  rw [readListing, List.splitOn_eq_singleton h, List.map_singleton]

/-- Lines that are joined say what each of them says. -/
lemma readListing_joinLines (lines : List String) :
    readListing (joinLines lines).toList = lines.flatMap fun line => readListing line.toList := by
  have hnewline : ("\n" : String).toList = ['\n'] := rfl
  have hend : ∀ text : String, readListing (text ++ "\n").toList = readListing text.toList := by
    intro text
    rw [String.toList_append, hnewline, readListing_append]
    exact List.append_nil _
  rw [joinLines, hend]
  induction lines with
  | nil => rfl
  | cons line lines ih =>
    cases lines with
    | nil => rw [String.intercalate_singleton, List.flatMap_singleton]
    | cons next lines =>
      rw [String.intercalate_cons_cons, String.toList_append, String.toList_append, hnewline,
        List.append_assoc, List.singleton_append, readListing_append, ih]
      rfl

end Lines

/-! ## Literals -/

/-- The characters of a data literal. -/
lemma toList_literalText (bytes : List UInt8) :
    (literalText bytes).toList = (literalName bytes.length ++ " $0x").toList ++
      Text.hexDigits (2 * bytes.length) (ofLittleEndian bytes) := by
  rw [literalText, String.toList_append, Text.hex, String.toList_ofList]

/-- What follows the beginning of a data literal, of which the name tells the width. -/
lemma after?_literal {p q : ℕ × String} (hp : p ∈ literalWidths) (hq : q ∈ literalWidths)
    (digits : List Char) :
    Text.after? (p.2 ++ " $0x") ((q.2 ++ " $0x").toList ++ digits) =
      if p = q then some digits else none := by
  simp only [literalWidths, List.mem_cons, List.not_mem_nil, or_false] at hp hq
  rcases hp with rfl | rfl | rfl | rfl <;> rcases hq with rfl | rfl | rfl | rfl <;> rfl

/-- The name of a data literal is that of its width. -/
lemma literalName_eq {n : ℕ} {name : String} (h : (n, name) ∈ literalWidths) :
    literalName n = name := by
  simp only [literalWidths, List.mem_cons, List.not_mem_nil, or_false, Prod.mk.injEq] at h
  rcases h with ⟨rfl, rfl⟩ | ⟨rfl, rfl⟩ | ⟨rfl, rfl⟩ | ⟨rfl, rfl⟩ <;> rfl

/-- A data literal reads back to its bytes. -/
lemma literalBytes?_literalText {bytes : List UInt8} {name : String}
    (h : (bytes.length, name) ∈ literalWidths) :
    literalBytes? (literalText bytes).toList = some bytes := by
  rw [toList_literalText, literalName_eq h, literalBytes?]
  have hfound : ∀ p ∈ literalWidths, ((Text.after? (p.2 ++ " $0x") ((name ++ " $0x").toList ++
      Text.hexDigits (2 * bytes.length) (ofLittleEndian bytes))).bind fun digits =>
        (Text.digits? 16 digits).map (littleEndian p.1)) =
        if p = (bytes.length, name) then some bytes else none := by
    intro p hp
    rw [after?_literal hp h]
    split
    · rename_i heq
      rw [Option.bind_some, digits?_hexDigits, heq, Option.map_some,
        littleEndian_ofLittleEndian]
    · rfl
  -- The widths differ, so that only the literal of this width is found.
  cases hread : literalWidths.findSome? _ with
  | none =>
    have hnone := List.findSome?_eq_none_iff.mp hread _ h
    rw [hfound _ h, if_pos rfl] at hnone
    cases hnone
  | some found =>
    obtain ⟨p, hp, hsome⟩ := List.exists_of_findSome?_eq_some hread
    rw [hfound p hp] at hsome
    split at hsome
    · exact hsome.symm
    · cases hsome

/-- No comment, no statement and no line begins or ends in a data literal. -/
lemma plain_of_mem_literalText {bytes : List UInt8} {name : String}
    (h : (bytes.length, name) ∈ literalWidths) {c : Char} (hc : c ∈ (literalText bytes).toList) :
    c ≠ '/' ∧ c ≠ ';' ∧ c ≠ '\n' := by
  have hlead : ∀ p ∈ literalWidths, ∀ c ∈ (p.2 ++ " $0x").toList, c ≠ '/' ∧ c ≠ ';' ∧ c ≠ '\n' := by
    decide
  rw [toList_literalText, literalName_eq h, List.mem_append] at hc
  rcases hc with hc | hc
  · exact hlead _ h c hc
  · have hdigit := (isAlphanum_of_mem_hexDigits hc).1
    refine ⟨?_, ?_, ?_⟩ <;> rintro rfl <;> exact absurd hdigit (by decide)

/-- No blank stands at either end of a data literal. -/
lemma ends_of_literalText {bytes : List UInt8} {name : String}
    (h : (bytes.length, name) ∈ literalWidths) :
    (literalText bytes).toList ≠ [] ∧
      (∀ c ∈ (literalText bytes).toList.head?, Text.isBlank c = false) ∧
      ∀ c ∈ (literalText bytes).toList.getLast?, Text.isBlank c = false := by
  have hlead : ∀ p ∈ literalWidths, (p.2 ++ " $0x").toList ≠ [] ∧
      ∀ c ∈ (p.2 ++ " $0x").toList.head?, Text.isBlank c = false := by
    decide
  obtain ⟨hne, hhead⟩ := hlead _ h
  rw [toList_literalText, literalName_eq h, List.head?_append_of_ne_nil _ hne]
  refine ⟨List.append_ne_nil_of_left_ne_nil hne _, hhead, fun c hc => ?_⟩
  exact (isAlphanum_of_mem_hexDigits (mem_hexDigits_of_getLast? _ hc)).2

/-- A literal reads as its bytes, whatever blanks stand before it. -/
lemma readStatement_literalText {bytes : List UInt8} {name : String}
    (h : (bytes.length, name) ∈ literalWidths) (front : List Char)
    (hfront : ∀ c ∈ front, Text.isBlank c = true) :
    readStatement (front ++ (literalText bytes).toList) = bytes.map .byte := by
  obtain ⟨-, hhead, hlast⟩ := ends_of_literalText h
  rw [readStatement, Text.trim_append_left hfront, Text.trim_eq_self hhead hlast,
    literalBytes?_literalText h]

/-! ## Parts of machine code -/

/-- The parts into which machine code is cut for its literals. -/
def codeParts (style : ListingStyle) (code : List UInt8) : List (List UInt8) :=
  (codePieces style.compact code).map (·.2)

/-- The parts of machine code one after another are the code. -/
lemma flatten_codeParts (style : ListingStyle) (code : List UInt8) :
    (codeParts style code).flatten = code :=
  flatten_pieces _ 0 code

/-- The parts of machine code are as long as literals. -/
lemma exists_width_of_mem_codeParts {style : ListingStyle} {code part : List UInt8}
    (h : part ∈ codeParts style code) : ∃ name, (part.length, name) ∈ literalWidths := by
  obtain ⟨p, hp, rfl⟩ := List.mem_map.mp h
  refine exists_width_of_mem_pieces ?_ hp
  intro offset left width h
  simp only [Bool.or_eq_true, beq_iff_eq, Bool.and_eq_true, decide_eq_true_eq] at h
  exact h.imp_right (·.2)

/-! ## Machine code -/

section Code

variable {parts : List (List UInt8)}

/-- The literals of parts, with semicolons between them. -/
def literalRow (parts : List (List UInt8)) : List Char :=
  [';', ' '].intercalate (parts.map fun bytes => (literalText bytes).toList)

lemma literalRow_cons (bytes next : List UInt8) (parts : List (List UInt8)) :
    literalRow (bytes :: next :: parts) =
      (literalText bytes).toList ++ ';' :: ' ' :: literalRow (next :: parts) := by
  simp [literalRow, List.intercalate_cons_cons]

/-- No comment and no line begins in a row of literals. -/
lemma plain_of_mem_literalRow (h : ∀ bytes ∈ parts, ∃ name, (bytes.length, name) ∈ literalWidths)
    {c : Char} (hc : c ∈ literalRow parts) : c ≠ '/' ∧ c ≠ '\n' := by
  rcases Text.mem_of_mem_intercalate hc with hc | ⟨l, hl, hc⟩
  · have hsep : ∀ c ∈ [';', ' '], c ≠ '/' ∧ c ≠ '\n' := by decide
    exact hsep c hc
  · obtain ⟨bytes, hbytes, rfl⟩ := List.mem_map.mp hl
    obtain ⟨name, hname⟩ := h bytes hbytes
    obtain ⟨hslash, -, hbreak⟩ := plain_of_mem_literalText hname hc
    exact ⟨hslash, hbreak⟩

/-- No blank stands at the end of a row of literals, and the row is not empty. -/
lemma ends_of_literalRow (hne : parts ≠ [])
    (h : ∀ bytes ∈ parts, ∃ name, (bytes.length, name) ∈ literalWidths) :
    literalRow parts ≠ [] ∧ ∀ c ∈ (literalRow parts).getLast?, Text.isBlank c = false := by
  induction parts with
  | nil => exact absurd rfl hne
  | cons bytes parts ih =>
    obtain ⟨⟨name, hname⟩, hparts⟩ := List.forall_mem_cons.mp h
    obtain ⟨hliteral, -, hlast⟩ := ends_of_literalText hname
    cases parts with
    | nil =>
      rw [literalRow, List.map_singleton, List.intercalate_singleton]
      exact ⟨hliteral, hlast⟩
    | cons next parts =>
      obtain ⟨hrow, hend⟩ := ih (List.cons_ne_nil _ _) hparts
      rw [literalRow_cons, List.getLast?_append_of_ne_nil _ (List.cons_ne_nil _ _)]
      refine ⟨List.append_ne_nil_of_right_ne_nil _ (List.cons_ne_nil _ _), ?_⟩
      rwa [List.getLast?_cons_of_ne_nil (List.cons_ne_nil _ _), List.getLast?_cons_of_ne_nil hrow]

/-- A row of literals reads as the bytes of its parts, whatever blanks stand before it. -/
lemma readStatements_literalRow (hne : parts ≠ [])
    (h : ∀ bytes ∈ parts, ∃ name, (bytes.length, name) ∈ literalWidths) (front : List Char)
    (hfront : ∀ c ∈ front, Text.isBlank c = true) :
    ((front ++ literalRow parts).splitOn ';').flatMap readStatement =
      parts.flatten.map .byte := by
  obtain ⟨first, parts, rfl⟩ := List.exists_cons_of_ne_nil hne
  obtain ⟨⟨name, hname⟩, hparts⟩ := List.forall_mem_cons.mp h
  have hsemicolon : ∀ p ∈ (first :: parts).map fun bytes => (literalText bytes).toList,
      ';' ∉ p := by
    intro p hp hmem
    obtain ⟨bytes, hbytes, rfl⟩ := List.mem_map.mp hp
    obtain ⟨name, hname⟩ := h bytes hbytes
    exact (plain_of_mem_literalText hname hmem).2.1 rfl
  have hblank : ';' ∉ front := fun hmem => absurd (hfront _ hmem) (by decide)
  rw [literalRow, List.map_cons, Text.splitOn_row front hblank (by decide) hsemicolon, List.flatMap_cons,
    readStatement_literalText hname front hfront, List.map_map, List.flatMap_map, List.flatten_cons,
    List.map_append, List.map_flatten, ← List.flatMap_def]
  congr 1
  refine List.flatMap_congr fun bytes hbytes => ?_
  obtain ⟨name, hname⟩ := hparts bytes hbytes
  exact readStatement_literalText hname [' '] (by decide)

end Code

/-- The literals of machine code are a row. -/
lemma toList_literals (style : ListingStyle) (code : List UInt8) :
    (String.intercalate "; " (literals style.compact code)).toList =
      literalRow (codeParts style code) := by
  rw [String.toList_intercalate, literals, List.map_map, literalRow, codeParts, List.map_map]
  rfl

/-- A line of machine code: its literals, then blanks, and a comment if the style has one. -/
lemma toList_codeLine (style : ListingStyle) (bytes : List UInt8) (source : Option String) :
    ∃ blanks comment, ("\t" ++ codeLine style bytes source).toList =
        '\t' :: literalRow (codeParts style bytes) ++ blanks ++ comment ∧
      (∀ c ∈ blanks, c = ' ') ∧
        (comment = [] ∨ ∃ s ∈ source, comment = '/' :: '/' :: ' ' :: s.toList) := by
  have hplain : ("\t" ++ String.intercalate "; " (literals style.compact bytes)).toList =
      '\t' :: literalRow (codeParts style bytes) ++ [] ++ [] := by
    rw [String.toList_append, toList_literals, List.append_nil, List.append_nil]
    rfl
  unfold codeLine
  cases source with
  | none => exact ⟨[], [], hplain, by simp, .inl rfl⟩
  | some s =>
    dsimp only
    split
    · let text := String.intercalate "; " (literals style.compact bytes)
      refine ⟨List.replicate (40 - text.length) ' ' ++ [' '], _, ?_, ?_, .inr ⟨s, rfl, rfl⟩⟩
      · rw [padded, String.toList_append, String.toList_append, String.toList_append,
          String.toList_append, toList_literals, String.toList_ofList]
        simp [text]
      · intro c hc
        rw [List.mem_append, List.mem_singleton] at hc
        exact hc.elim List.eq_of_mem_replicate id
    · exact ⟨[], [], hplain, by simp, .inl rfl⟩

/-- In front of its comment a line of machine code has its literals, and blanks. -/
lemma beforeComment_codeLine (style : ListingStyle) (bytes : List UInt8) (source : Option String) :
    ∃ blanks, (∀ c ∈ blanks, Text.isBlank c = true) ∧
      beforeComment ("\t" ++ codeLine style bytes source).toList =
        '\t' :: literalRow (codeParts style bytes) ++ blanks := by
  obtain ⟨blanks, comment, hline, hblanks, hcomment⟩ := toList_codeLine style bytes source
  have hslash : '/' ∉ '\t' :: literalRow (codeParts style bytes) ++ blanks := by
    rw [List.cons_append, List.mem_cons, List.mem_append, not_or, not_or]
    refine ⟨by decide, fun h => ?_, fun h => ?_⟩
    · exact (plain_of_mem_literalRow (fun _ => exists_width_of_mem_codeParts) h).1 rfl
    · exact absurd (hblanks _ h) (by decide)
  refine ⟨blanks, ?_, ?_⟩
  · intro c hc
    rw [hblanks c hc]
    decide
  · rw [hline]
    rcases hcomment with rfl | ⟨s, -, rfl⟩
    · rw [List.append_nil, beforeComment_eq_self hslash]
    · exact beforeComment_append hslash

/-- A line of machine code says the code, whatever the style of the listing. -/
lemma readLine_codeLine (style : ListingStyle) (bytes : List UInt8) (source : Option String) :
    readLine ("\t" ++ codeLine style bytes source).toList = bytes.map .byte := by
  obtain ⟨blanks, hblanks, hcode⟩ := beforeComment_codeLine style bytes source
  have hparts := flatten_codeParts style bytes
  have hwidths := fun part => @exists_width_of_mem_codeParts style bytes part
  rw [readLine, hcode, Text.trimRight_append hblanks]
  by_cases hne : codeParts style bytes = []
  · rw [hne] at hparts ⊢
    rw [← hparts]
    decide
  · obtain ⟨hrow, hend⟩ := ends_of_literalRow hne hwidths
    have htrim : Text.trimRight ('\t' :: literalRow (codeParts style bytes)) =
        '\t' :: literalRow (codeParts style bytes) := by
      refine Text.trimRight_eq_self ?_
      rwa [List.getLast?_cons_of_ne_nil hrow]
    have hstatements := readStatements_literalRow hne hwidths ['\t'] (by decide)
    rw [htrim, List.isEmpty_cons, if_neg (by simp), ← List.singleton_append, hstatements, hparts]

/-- A line of machine code is one line, if the statement behind it is. -/
lemma notMem_codeLine {style : ListingStyle} {bytes : List UInt8} {source : Option String}
    (h : ∀ s ∈ source, '\n' ∉ s.toList) : '\n' ∉ ("\t" ++ codeLine style bytes source).toList := by
  obtain ⟨blanks, comment, hline, hblanks, hcomment⟩ := toList_codeLine style bytes source
  rw [hline, List.mem_append, List.cons_append, List.mem_cons, List.mem_append, not_or, not_or,
    not_or]
  refine ⟨⟨by decide, fun hrow => ?_, fun hblank => ?_⟩, ?_⟩
  · exact (plain_of_mem_literalRow (fun _ => exists_width_of_mem_codeParts) hrow).2 rfl
  · exact absurd (hblanks _ hblank) (by decide)
  · rcases hcomment with rfl | ⟨s, hs, rfl⟩
    · exact List.not_mem_nil
    · simpa using h s hs

/-! ## Listings -/

/-- The statement that an item shows behind its machine code, or in its place, is one line. -/
def Item.IsOnOneLine : Item → Prop
  | .directive d => '\n' ∉ d.text.toList
  | .code _ source => ∀ s ∈ source, '\n' ∉ s.toList
  | _ => True

/-- What the lines of an item say, in every style. -/
def Item.reading : Item → List (List ListingToken)
  | .label name => readListing (targetLabel name ++ ":").toList
  | .directive _ => []
  | .code bytes _ => [bytes.map .byte].filter (!·.isEmpty)
  | .native i => readListing ("\t" ++ i.text).toList
  | .verbatim text => readListing ("\t" ++ text).toList
  | .other _ => []

/-- A line that is a comment says nothing. -/
lemma readListing_comment {s : String} (h : '\n' ∉ s.toList) :
    readListing ("\t// " ++ s).toList = [] := by
  have hline : ("\t// " ++ s).toList = ['\t'] ++ '/' :: '/' :: ' ' :: s.toList := by
    rw [String.toList_append]
    rfl
  have hbreak : '\n' ∉ ['\t'] ++ '/' :: '/' :: ' ' :: s.toList := by simpa using h
  rw [hline, readListing_line hbreak, readLine, beforeComment_append (by decide)]
  decide

/-- What the lines of an item say does not depend on the style. -/
lemma flatMap_readListing_lines {style : ListingStyle} {item : Item} (hitem : item.IsOnOneLine)
    {lines : List String} (h : item.lines style = .ok lines) :
    (lines.flatMap fun line => readListing line.toList) = item.reading := by
  cases item with
  | label name =>
    rw [← Except.ok.inj h]
    exact List.append_nil _
  | directive d =>
    rw [← Except.ok.inj h]
    split
    · rw [List.flatMap_singleton]
      exact readListing_comment hitem
    · rfl
  | code bytes source =>
    rw [← Except.ok.inj h, List.flatMap_singleton, readListing_line (notMem_codeLine hitem),
      readLine_codeLine]
    rfl
  | native i =>
    rw [← Except.ok.inj h]
    exact List.append_nil _
  | verbatim text =>
    rw [← Except.ok.inj h]
    exact List.append_nil _
  | other shown => cases h

/-- An item that has lines in one style has lines in every style. -/
lemma exists_lines_of_style {style : ListingStyle} {item : Item} {lines : List String}
    (h : item.lines style = .ok lines) (style' : ListingStyle) :
    ∃ lines', item.lines style' = .ok lines' := by
  cases item with
  | other shown => cases h
  | _ => exact ⟨_, rfl⟩

/-- What the block of a function says, in every style. -/
def ConvertedFunction.reading (g : ConvertedFunction) : List (List ListingToken) :=
  readListing (blockHead g.symbol g.layout.size g.signature.argBytes).toList ++
    g.items.flatMap Item.reading

end AsmBridge
