import Refearn.Sales.Csv
import Refearn.Support.Pieces
import Mathlib.Tactic
/-!
# Reading what was written

The reader agrees with `rowsOf` character by character; what is written is then read back
by cutting it where it was joined. A written cell is skipped as a whole when a text is
cut, since its quotes are even and its separators are inside them.
-/

namespace Refearn.Sales

open Support

/-! ## The reader -/

/-- The cells of a line in the middle of a cell. -/
def cellsFrom (field : Chars) (inQuotes : Bool) (line : Chars) : List Chars :=
  match splitOutside ',' inQuotes line with
  | [] => []
  | cell :: cells => (field ++ unquote inQuotes cell) :: cells.map (unquote false)

/-- The rows of a text in the middle of a row. -/
def rowsFrom (row : List Chars) (field : Chars) (inQuotes : Bool) (cs : Chars) :
    List (List Chars) :=
  match splitOutside '\n' inQuotes cs with
  | [] => []
  | line :: lines => (row ++ cellsFrom field inQuotes line) :: lines.map (cellsFrom [] false)

theorem exists_splitOutside (x : Char) (inQuotes : Bool) (cs : Chars) :
    ∃ piece pieces, splitOutside x inQuotes cs = piece :: pieces := by
  induction cs generalizing inQuotes with
  | nil => exact ⟨[], [], rfl⟩
  | cons c cs ih =>
      rw [splitOutside]
      split_ifs
      · exact ⟨_, _, rfl⟩
      · obtain ⟨piece, pieces, h⟩ := ih !inQuotes
        exact ⟨_, _, by rw [h]; rfl⟩
      · obtain ⟨piece, pieces, h⟩ := ih inQuotes
        exact ⟨_, _, by rw [h]; rfl⟩

/-- The first piece starts as the text does, or it is empty. -/
theorem head_of_splitOutside {x : Char} {inQuotes : Bool} {cs piece : Chars}
    {pieces : List Chars} (h : splitOutside x inQuotes cs = piece :: pieces) {c : Char}
    (hc : piece.head? = some c) : cs.head? = some c := by
  cases cs with
  | nil =>
      rw [splitOutside] at h
      rw [← (List.cons.inj h).1] at hc
      exact absurd hc nofun
  | cons d cs =>
      rw [splitOutside] at h
      split_ifs at h
      · rw [← (List.cons.inj h).1] at hc
        exact absurd hc nofun
      all_goals
        obtain ⟨piece', pieces', hrest⟩ := exists_splitOutside x _ cs
        rw [hrest] at h
        rw [← (List.cons.inj h).1] at hc
        exact hc

theorem cellsFrom_nil (field : Chars) (inQuotes : Bool) :
    cellsFrom field inQuotes [] = [field] := by
  simp [cellsFrom, splitOutside, unquote]

theorem cellsFrom_empty (line : Chars) :
    cellsFrom [] false line = (splitOutside ',' false line).map (unquote false) := by
  obtain ⟨cell, cells, h⟩ := exists_splitOutside ',' false line
  rw [cellsFrom, h]
  rfl

theorem rowsFrom_empty (cs : Chars) :
    rowsFrom [] [] false cs = (splitOutside '\n' false cs).map (cellsFrom [] false) := by
  obtain ⟨line, lines, h⟩ := exists_splitOutside '\n' false cs
  rw [rowsFrom, h]
  rfl

/-- Two cells in the middle are read alike when their first pieces are. -/
theorem cellsFrom_cons {field field' : Chars} {inQuotes inQuotes' : Bool} {c : Char}
    (line : Chars) (hcut : ¬ (c = ',' ∧ inQuotes = false))
    (hquote : (if c = '"' then !inQuotes else inQuotes) = inQuotes')
    (hcell : ∀ cell, (cell.head? = some '"' → line.head? = some '"') →
      field ++ unquote inQuotes (c :: cell) = field' ++ unquote inQuotes' cell) :
    cellsFrom field inQuotes (c :: line) = cellsFrom field' inQuotes' line := by
  obtain ⟨cell, cells, h⟩ := exists_splitOutside ',' inQuotes' line
  have hfirst := hcell cell fun hc => head_of_splitOutside h hc
  rw [cellsFrom, splitOutside, if_neg hcut, hquote, cellsFrom, h]
  simp only [List.modifyHead_cons, hfirst]

theorem rowsFrom_cons {row : List Chars} {field field' : Chars} {inQuotes inQuotes' : Bool}
    {c : Char} {cs : Chars} (hcut : ¬ (c = '\n' ∧ inQuotes = false))
    (hcomma : ¬ (c = ',' ∧ inQuotes = false))
    (hquote : (if c = '"' then !inQuotes else inQuotes) = inQuotes')
    (hcell : ∀ cell, (cell.head? = some '"' → cs.head? = some '"') →
      field ++ unquote inQuotes (c :: cell) = field' ++ unquote inQuotes' cell) :
    rowsFrom row field inQuotes (c :: cs) = rowsFrom row field' inQuotes' cs := by
  obtain ⟨line, lines, h⟩ := exists_splitOutside '\n' inQuotes' cs
  have hline := cellsFrom_cons line hcomma hquote fun cell hc =>
    hcell cell fun hhead => head_of_splitOutside h (hc hhead)
  rw [rowsFrom, splitOutside, if_neg hcut, hquote, rowsFrom, h]
  simp only [List.modifyHead_cons, hline]

theorem rowsFrom_comma (row : List Chars) (field cs : Chars) :
    rowsFrom row field false (',' :: cs) = rowsFrom (row ++ [field]) [] false cs := by
  obtain ⟨line, lines, h⟩ := exists_splitOutside '\n' false cs
  have hline : cellsFrom field false (',' :: line) = field :: cellsFrom [] false line := by
    rw [cellsFrom_empty, cellsFrom, splitOutside, if_pos ⟨rfl, rfl⟩]
    simp [unquote]
  rw [rowsFrom, splitOutside, if_neg (by decide), if_neg (by decide), rowsFrom, h]
  simp only [List.modifyHead_cons, hline, List.append_assoc, List.singleton_append]

theorem rowsFrom_newline (row : List Chars) (field cs : Chars) :
    rowsFrom row field false ('\n' :: cs) = (row ++ [field]) :: rowsFrom [] [] false cs := by
  rw [rowsFrom_empty, rowsFrom, splitOutside, if_pos ⟨rfl, rfl⟩]
  simp only [cellsFrom_nil]

theorem splitOutside_pair {x : Char} (hx : x ≠ '"') (cs : Chars) :
    splitOutside x true ('"' :: '"' :: cs) =
      (splitOutside x true cs).modifyHead fun piece => '"' :: '"' :: piece := by
  obtain ⟨piece, pieces, h⟩ := exists_splitOutside x true cs
  simp [splitOutside, hx.symm, h]

theorem rowsFrom_pair (row : List Chars) (field cs : Chars) :
    rowsFrom row field true ('"' :: '"' :: cs) = rowsFrom row (field ++ ['"']) true cs := by
  obtain ⟨line, lines, h⟩ := exists_splitOutside '\n' true cs
  obtain ⟨cell, cells, hline⟩ := exists_splitOutside ',' true line
  have hcells : cellsFrom field true ('"' :: '"' :: line) =
      cellsFrom (field ++ ['"']) true line := by
    rw [cellsFrom, splitOutside_pair (by decide), cellsFrom, hline]
    simp [unquote]
  rw [rowsFrom, splitOutside_pair (by decide), rowsFrom, h]
  simp only [List.modifyHead_cons, hcells]

/-- The rows when the text ends here. -/
def CsvReader.all (r : CsvReader) : List (List Chars) := r.rows ++ [r.row ++ [r.field]]

theorem unquote_of_ne {inQuotes : Bool} {c : Char} (hc : c ≠ '"') (cell : Chars) :
    unquote inQuotes (c :: cell) = c :: unquote inQuotes cell := by
  cases cell <;> simp [unquote, hc]

theorem unquote_flip {inQuotes : Bool} {cell : Chars}
    (h : inQuotes = true → cell.head? ≠ some '"') :
    unquote inQuotes ('"' :: cell) = unquote (!inQuotes) cell := by
  cases cell with
  | nil => rfl
  | cons d cell =>
      rw [unquote, if_pos rfl, if_neg]
      rintro ⟨hquotes, rfl⟩
      exact h hquotes rfl

theorem all_readChars (r : CsvReader) (cs : Chars) :
    (r.readChars cs).all = r.rows ++ rowsFrom r.row r.field r.inQuotes cs := by
  fun_induction CsvReader.readChars r cs with
  | case1 r =>
      rw [rowsFrom, splitOutside]
      simp only [cellsFrom_nil]
      rfl
  | case2 r hquotes =>
      have hstep : rowsFrom r.row r.field true ['"'] = rowsFrom r.row r.field false [] :=
        rowsFrom_cons (by decide) (by decide) rfl fun cell hc => by
          rw [unquote_flip fun _ hhead => absurd (hc hhead) nofun]
          rfl
      rw [hquotes, hstep, rowsFrom, splitOutside]
      simp only [cellsFrom_nil]
      rfl
  | case3 r hquotes rest ih =>
      rw [ih, hquotes, rowsFrom_pair]
      simp only [CsvReader.push, hquotes]
  | case4 r hquotes d rest hd ih =>
      have hstep : rowsFrom r.row r.field true ('"' :: d :: rest) =
          rowsFrom r.row r.field false (d :: rest) :=
        rowsFrom_cons (by decide) (by decide) rfl fun cell hc => by
          rw [unquote_flip fun _ hhead => hd (Option.some.inj (hc hhead))]
          rfl
      rw [ih, hquotes, hstep]
      rfl
  | case5 r c cs hquotes hc ih =>
      have hstep : rowsFrom r.row r.field true (c :: cs) =
          rowsFrom r.row (r.field ++ [c]) true cs :=
        rowsFrom_cons (by simp) (by simp) (if_neg hc) fun cell _ => by
          rw [unquote_of_ne hc, List.append_assoc, List.singleton_append]
      rw [ih, hquotes, hstep]
      simp only [CsvReader.push, hquotes]
  | case6 r cs hquotes ih =>
      have hstep : rowsFrom r.row r.field false ('"' :: cs) = rowsFrom r.row r.field true cs :=
        rowsFrom_cons (by decide) (by decide) rfl fun cell _ =>
          congrArg (r.field ++ ·) (unquote_flip fun h => absurd h Bool.false_ne_true)
      rw [ih, Bool.eq_false_iff.mpr hquotes, hstep]
      rfl
  | case7 r cs hquotes _ ih =>
      rw [ih, Bool.eq_false_iff.mpr hquotes, rowsFrom_comma]
      simp only [CsvReader.endField, hquotes]
  | case8 r cs hquotes _ _ ih =>
      rw [ih, Bool.eq_false_iff.mpr hquotes, rowsFrom_newline]
      simp only [CsvReader.endRow, hquotes, List.append_assoc, List.singleton_append]
  | case9 r c cs hquotes hquote hcomma hnewline ih =>
      have hstep : rowsFrom r.row r.field false (c :: cs) =
          rowsFrom r.row (r.field ++ [c]) false cs :=
        rowsFrom_cons (fun h => hnewline h.1) (fun h => hcomma h.1) (if_neg hquote)
          fun cell _ => by
            rw [unquote_of_ne hquote, List.append_assoc, List.singleton_append]
      rw [ih, Bool.eq_false_iff.mpr hquotes, hstep]
      simp only [CsvReader.push, hquotes]

/-- A row with nothing in it is blank, so it does not matter whether the end of the text
counts as one. -/
theorem finish_filter (r : CsvReader) : r.finish.filter notBlank = r.all.filter notBlank := by
  unfold CsvReader.finish CsvReader.all
  split_ifs with hend
  · rfl
  · have hfield : r.field = [] := not_not.mp fun h => hend (.inl h)
    have hrow : r.row = [] := List.eq_nil_of_length_eq_zero (by omega)
    have hblank : notBlank [([] : Chars)] = false := by decide
    rw [hfield, hrow, List.nil_append, List.filter_append,
      List.filter_cons_of_neg (by simp [hblank]), List.filter_nil, List.append_nil]

/-- The rows read are the rows of the text that are not blank. -/
theorem parseChars_eq (text : Chars) : parseChars text = (rowsOf text).filter notBlank := by
  have hcells : cellsFrom [] false = fun line => (splitOutside ',' false line).map (unquote false) :=
    funext cellsFrom_empty
  rw [parseChars, finish_filter, all_readChars, rowsOf, ← hcells, ← rowsFrom_empty]
  rfl

/-! ## Skipping what was written -/

/-- No cut of a text at `x` falls into `cs`; after it the quotes stand as they did before
if `inQuotes` and `after` agree. -/
def Skips (x : Char) (inQuotes after : Bool) (cs : Chars) : Prop :=
  ∀ rest, splitOutside x inQuotes (cs ++ rest) = (splitOutside x after rest).modifyHead (cs ++ ·)

theorem skips_nil (x : Char) (inQuotes : Bool) : Skips x inQuotes inQuotes [] := by
  intro rest
  obtain ⟨piece, pieces, h⟩ := exists_splitOutside x inQuotes rest
  rw [List.nil_append, h]
  rfl

theorem skips_append {x : Char} {inQuotes middle after : Bool} {as bs : Chars}
    (ha : Skips x inQuotes middle as) (hb : Skips x middle after bs) :
    Skips x inQuotes after (as ++ bs) := by
  intro rest
  obtain ⟨piece, pieces, h⟩ := exists_splitOutside x after rest
  rw [List.append_assoc, ha, hb, h]
  simp only [List.modifyHead_cons, List.append_assoc]

theorem skips_char {x c : Char} {inQuotes : Bool} (hc : c ≠ '"')
    (hcut : ¬ (c = x ∧ inQuotes = false)) : Skips x inQuotes inQuotes [c] := by
  intro rest
  rw [List.singleton_append, splitOutside, if_neg hcut, if_neg hc]
  rfl

theorem skips_quote {x : Char} (hx : x ≠ '"') (inQuotes : Bool) :
    Skips x inQuotes (!inQuotes) ['"'] := by
  intro rest
  rw [List.singleton_append, splitOutside, if_neg fun h => hx h.1.symm, if_pos rfl]
  rfl

theorem skips_plain {x : Char} {cs : Chars} (hquote : '"' ∉ cs) (hx : x ∉ cs) :
    Skips x false false cs := by
  induction cs with
  | nil => exact skips_nil x false
  | cons c cs ih =>
      have hhead : Skips x false false [c] :=
        skips_char (fun h => hquote (h ▸ List.mem_cons_self ..))
          (fun h => hx (h.1 ▸ List.mem_cons_self ..))
      exact skips_append hhead (ih (fun h => hquote (List.mem_cons_of_mem _ h))
        (fun h => hx (List.mem_cons_of_mem _ h)))

theorem skips_doubleQuotes {x : Char} (hx : x ≠ '"') (cs : Chars) :
    Skips x true true (doubleQuotes cs) := by
  induction cs with
  | nil => exact skips_nil x true
  | cons c cs ih =>
      have hhead : Skips x true true (if c = '"' then ['"', '"'] else [c]) := by
        split_ifs with hc
        · exact skips_append (skips_quote hx true) (skips_quote hx false)
        · exact skips_char hc (by simp)
      exact skips_append hhead ih

/-- A written cell: in quotes if asked for. -/
def cellText (quoted : Bool) (cs : Chars) : Chars :=
  if quoted then '"' :: (doubleQuotes cs ++ ['"']) else cs

/-- A cell that is not in quotes has none of the characters that need them. -/
def CellOk (quoted : Bool) (cs : Chars) : Prop :=
  quoted = false → '"' ∉ cs ∧ ',' ∉ cs ∧ '\n' ∉ cs ∧ '\r' ∉ cs

theorem skips_cellText {x : Char} (hx : x = ',' ∨ x = '\n') {quoted : Bool} {cs : Chars}
    (hcell : CellOk quoted cs) : Skips x false false (cellText quoted cs) := by
  have hquote : x ≠ '"' := by
    rcases hx with rfl | rfl <;> decide
  cases quoted with
  | false =>
      obtain ⟨hquotes, hcomma, hnewline, -⟩ := hcell rfl
      apply skips_plain hquotes
      rcases hx with rfl | rfl
      · exact hcomma
      · exact hnewline
  | true =>
      exact skips_append (skips_quote hquote false)
        (skips_append (skips_doubleQuotes hquote cs) (skips_quote hquote true))

theorem unquote_doubleQuotes (cs : Chars) :
    unquote true (doubleQuotes cs ++ ['"']) = cs := by
  induction cs with
  | nil => rfl
  | cons c cs ih =>
      by_cases hc : c = '"'
      · have hpair : doubleQuotes (c :: cs) = '"' :: '"' :: doubleQuotes cs := by
          simp [doubleQuotes, hc]
        rw [hpair, hc, List.cons_append, List.cons_append, unquote, if_pos rfl, if_pos ⟨rfl, rfl⟩,
          ih]
      · have hsingle : doubleQuotes (c :: cs) = c :: doubleQuotes cs := by
          simp [doubleQuotes, hc]
        rw [hsingle, List.cons_append, unquote_of_ne hc, ih]

theorem unquote_of_notMem {cs : Chars} (h : '"' ∉ cs) : unquote false cs = cs := by
  induction cs with
  | nil => rfl
  | cons c cs ih =>
      rw [unquote_of_ne fun hc => h (hc ▸ List.mem_cons_self ..),
        ih fun hmem => h (List.mem_cons_of_mem _ hmem)]

theorem unquote_cellText {quoted : Bool} {cs : Chars} (hcell : CellOk quoted cs) :
    unquote false (cellText quoted cs) = cs := by
  cases quoted with
  | false => exact unquote_of_notMem (hcell rfl).1
  | true =>
      have hopen : unquote false (cellText true cs) =
          unquote true (doubleQuotes cs ++ ['"']) :=
        unquote_flip fun h => absurd h Bool.false_ne_true
      rw [hopen, unquote_doubleQuotes]

/-- What was joined is cut again. -/
theorem splitOutside_intercalate {x : Char} {pieces : List Chars} (hne : pieces ≠ [])
    (hskip : ∀ piece ∈ pieces, Skips x false false piece) :
    splitOutside x false ([x].intercalate pieces) = pieces := by
  induction pieces with
  | nil => exact absurd rfl hne
  | cons piece pieces ih =>
      have hfirst := hskip piece (List.mem_cons_self ..)
      cases pieces with
      | nil =>
          have hend := hfirst []
          rw [List.append_nil] at hend
          rw [List.intercalate_singleton, hend]
          simp [splitOutside]
      | cons next pieces =>
          rw [List.intercalate_cons_cons, List.append_assoc, hfirst, List.singleton_append,
            splitOutside, if_pos ⟨rfl, rfl⟩,
            ih (List.cons_ne_nil _ _) fun p hp => hskip p (List.mem_cons_of_mem _ hp)]
          simp only [List.modifyHead_cons, List.append_nil]

theorem skips_intercalate {x y : Char} (hx : x ≠ '"') (hxy : x ≠ y) {pieces : List Chars}
    (hskip : ∀ piece ∈ pieces, Skips y false false piece) :
    Skips y false false ([x].intercalate pieces) := by
  induction pieces with
  | nil => exact skips_nil y false
  | cons piece pieces ih =>
      have hfirst := hskip piece (List.mem_cons_self ..)
      cases pieces with
      | nil => rwa [List.intercalate_singleton]
      | cons next pieces =>
          rw [List.intercalate_cons_cons]
          exact skips_append (skips_append hfirst (skips_char hx fun h => hxy h.1))
            (ih fun p hp => hskip p (List.mem_cons_of_mem _ hp))

/-! ## Line endings of what was written -/

theorem head?_doubleQuotes (cs rest : Chars) :
    (doubleQuotes cs ++ '"' :: rest).head? = some '"' ∨
      (doubleQuotes cs ++ '"' :: rest).head? = cs.head? := by
  cases cs with
  | nil => exact .inl rfl
  | cons c cs =>
      by_cases hc : c = '"'
      · left
        simp [doubleQuotes, hc]
      · right
        simp [doubleQuotes, hc]

theorem doubleQuotes_cons {c : Char} (hc : c ≠ '"') (cs : Chars) :
    doubleQuotes (c :: cs) = c :: doubleQuotes cs := by
  simp [doubleQuotes, hc]

theorem doubleQuotes_quote (cs : Chars) :
    doubleQuotes ('"' :: cs) = '"' :: '"' :: doubleQuotes cs := by
  simp [doubleQuotes]

/-- One character of a cell that does not start a pair. -/
theorem normalizeLines_doubleQuotes_cons {c : Char} {cs rest : Chars}
    (hpair : c = '\r' → cs.head? ≠ some '\n')
    (ih : normalizeLines (doubleQuotes cs ++ '"' :: rest) =
      doubleQuotes (normalizeLines cs) ++ '"' :: normalizeLines rest) :
    normalizeLines (doubleQuotes (c :: cs) ++ '"' :: rest) =
      doubleQuotes (normalizeLines (c :: cs)) ++ '"' :: normalizeLines rest := by
  by_cases hc : c = '"'
  · rw [hc, doubleQuotes_quote, List.cons_append, List.cons_append,
      normalizeLines_cons (by decide), normalizeLines_cons (by decide),
      normalizeLines_cons (by decide), doubleQuotes_quote, ih]
    rfl
  · have hpair' : c = '\r' → (doubleQuotes cs ++ '"' :: rest).head? ≠ some '\n' := by
      intro hcr
      rcases head?_doubleQuotes cs rest with hhead | hhead
      · rw [hhead]
        decide
      · rw [hhead]
        exact hpair hcr
    have hplain : (if c = '\r' then '\n' else c) ≠ '"' := by
      split_ifs
      · decide
      · exact hc
    rw [doubleQuotes_cons hc, List.cons_append, normalizeLines_step hpair',
      normalizeLines_step hpair, doubleQuotes_cons hplain, ih, List.cons_append]

/-- Quotes do not take part in line endings. -/
theorem normalizeLines_doubleQuotes (cs rest : Chars) :
    normalizeLines (doubleQuotes cs ++ '"' :: rest) =
      doubleQuotes (normalizeLines cs) ++ '"' :: normalizeLines rest := by
  have hnil : normalizeLines (doubleQuotes [] ++ '"' :: rest) =
      doubleQuotes (normalizeLines []) ++ '"' :: normalizeLines rest :=
    normalizeLines_cons (by decide) rest
  induction cs using replaceCrLf.induct with
  | case1 => exact hnil
  | case2 c => exact normalizeLines_doubleQuotes_cons (fun _ => (Option.some_ne_none _).symm) hnil
  | case3 c d cs hpair ih =>
      obtain ⟨rfl, rfl⟩ := hpair
      rw [doubleQuotes_cons (by decide), doubleQuotes_cons (by decide), List.cons_append,
        List.cons_append, normalizeLines_crlf, normalizeLines_crlf,
        doubleQuotes_cons (by decide), ih, List.cons_append]
  | case4 c d cs hpair ih =>
      exact normalizeLines_doubleQuotes_cons
        (fun hcr hhead => hpair ⟨hcr, Option.some.inj hhead⟩) ih

theorem normalizesTo_cellText {quoted : Bool} {cs : Chars} (hcell : CellOk quoted cs) :
    NormalizesTo (cellText quoted cs) (cellText quoted (normalizeLines cs)) := by
  cases quoted with
  | false =>
      have hcr := (hcell rfl).2.2.2
      rw [normalizeLines_of_notMem hcr]
      exact normalizesTo_self hcr
  | true =>
      intro rest
      have hbody := normalizeLines_doubleQuotes cs rest
      simp only [cellText, if_true, List.cons_append, List.append_assoc, List.nil_append]
      rw [normalizeLines_cons (by decide), hbody]

/-! ## A table -/

def needsQuotes (text : Chars) : Bool :=
  text.any fun c => ['"', ',', '\n', '\r'].contains c

/-- What a cell is read as. -/
def exportedChars (cs : Chars) : Chars := normalizeLines (guardFormula cs)

/-- The text of a cell once line endings are normalised. -/
def writtenChars (cs : Chars) : Chars :=
  cellText (needsQuotes (guardFormula cs)) (exportedChars cs)

theorem cellOk_needsQuotes (text : Chars) : CellOk (needsQuotes text) text := by
  intro h
  have hnone : ∀ c ∈ text, ['"', ',', '\n', '\r'].contains c = false := by
    intro c hc
    exact Bool.eq_false_iff.mpr (List.any_eq_false.mp h c hc)
  refine ⟨?_, ?_, ?_, ?_⟩
  all_goals
    intro hmem
    exact absurd (hnone _ hmem) (by decide)

theorem cellOk_exportedChars (cs : Chars) :
    CellOk (needsQuotes (guardFormula cs)) (exportedChars cs) := by
  intro h
  have hcell := cellOk_needsQuotes (guardFormula cs) h
  rw [exportedChars, normalizeLines_of_notMem hcell.2.2.2]
  exact hcell

theorem normalizesTo_csvCellChars (cs : Chars) :
    NormalizesTo (csvCellChars cs) (writtenChars cs) :=
  normalizesTo_cellText (cellOk_needsQuotes (guardFormula cs))

/-- The cells of a line. -/
def cut (line : Chars) : List Chars := (splitOutside ',' false line).map (unquote false)

def writtenLine (row : List Chars) : Chars := [','].intercalate (row.map writtenChars)

theorem cut_writtenLine {row : List Chars} (hne : row ≠ []) :
    cut (writtenLine row) = row.map exportedChars := by
  have hsplit : splitOutside ',' false (writtenLine row) = row.map writtenChars := by
    apply splitOutside_intercalate
    · exact fun h => hne (List.map_eq_nil_iff.mp h)
    · intro piece hpiece
      obtain ⟨cs, -, rfl⟩ := List.mem_map.mp hpiece
      exact skips_cellText (.inl rfl) (cellOk_exportedChars cs)
  rw [cut, hsplit, List.map_map]
  apply List.map_congr_left
  intro cs _
  exact unquote_cellText (cellOk_exportedChars cs)

theorem skips_writtenLine (row : List Chars) : Skips '\n' false false (writtenLine row) := by
  apply skips_intercalate (by decide) (by decide)
  intro piece hpiece
  obtain ⟨cs, -, rfl⟩ := List.mem_map.mp hpiece
  exact skips_cellText (.inr rfl) (cellOk_exportedChars cs)

theorem rowsOf_of_lines {text : Chars} {lines : List Chars} (hne : lines ≠ [])
    (hskip : ∀ line ∈ lines, Skips '\n' false false line)
    (htext : normalizeLines text = ['\n'].intercalate lines) :
    rowsOf text = lines.map cut := by
  rw [rowsOf, htext, splitOutside_intercalate hne hskip]
  rfl

/-! ## Blank rows -/

theorem isSpace_of_trimChars {cs : Chars} (h : trimChars cs = []) : ∀ c ∈ cs, isSpace c := by
  have hblank : isBlank (String.ofList cs) :=
    (trim_eq_empty_iff _).mp (by rw [trim, String.toList_ofList, h])
  rwa [isBlank, String.toList_ofList] at hblank

/-- A cell with more than blanks keeps it. -/
theorem trimChars_exportedChars {cs : Chars} (h : ∃ c ∈ cs, isSpace c = false) :
    trimChars (exportedChars cs) ≠ [] := by
  obtain ⟨c, hc, hspace⟩ := h
  intro hblank
  have hne : c ≠ '\r' := by
    rintro rfl
    exact absurd hspace (by decide)
  have hguard : c ∈ guardFormula cs := by
    unfold guardFormula
    split_ifs
    · exact List.mem_cons_of_mem _ hc
    · exact hc
  have hall := isSpace_of_trimChars hblank c (mem_normalizeLines hguard hne)
  rw [hspace] at hall
  cases hall

theorem notBlank_exported {row : List Chars}
    (h : ∃ cs ∈ row, ∃ c ∈ cs, isSpace c = false) : notBlank (row.map exportedChars) = true := by
  obtain ⟨cs, hcs, hc⟩ := h
  rw [notBlank, List.any_eq_true]
  exact ⟨exportedChars cs, List.mem_map_of_mem hcs, by simpa using trimChars_exportedChars hc⟩

/-! ## Result -/

/-- What a cell becomes on its way through a file: an apostrophe in front of what the guard
takes for a formula, newlines for line endings. -/
def exportedCell (cell : String) : String := String.ofList (exportedChars cell.toList)

/-- The characters of the cells of a table. -/
def tableChars (table : List (List String)) : List (List Chars) :=
  table.map fun row => row.map String.toList

theorem toList_csvCell (cell : String) :
    (csvCell (some cell)).toList = csvCellChars cell.toList := by
  rw [csvCell, String.toList_ofList]
  rfl

theorem toList_writeCsv (table : List (List String)) :
    (writeCsv table).toList = ['\n'].intercalate
      ((tableChars table).map fun row => [','].intercalate (row.map csvCellChars)) := by
  have hrow : ∀ row : List String,
      (",".intercalate (row.map fun cell => csvCell (some cell))).toList =
        [','].intercalate ((row.map String.toList).map csvCellChars) := by
    intro row
    have hcells : (row.map fun cell => csvCell (some cell)).map String.toList =
        (row.map String.toList).map csvCellChars := by
      rw [List.map_map, List.map_map]
      exact List.map_congr_left fun cell _ => toList_csvCell cell
    rw [String.toList_intercalate, hcells]
    rfl
  rw [writeCsv, String.toList_intercalate, tableChars, List.map_map, List.map_map]
  congr 1
  exact List.map_congr_left fun row _ => hrow row

theorem normalizeLines_written (rows : List (List Chars)) :
    NormalizesTo (['\n'].intercalate (rows.map fun row => [','].intercalate (row.map csvCellChars)))
      (['\n'].intercalate (rows.map writtenLine)) := by
  apply normalizesTo_intercalate (by decide)
  intro row _
  apply normalizesTo_intercalate (by decide)
  intro cs _
  exact normalizesTo_csvCellChars cs

/-- A table is read back from the lines of its rows, with or without a newline after the
last one. -/
theorem parseChars_written {rows : List (List Chars)} (hne : rows ≠ [])
    (hrows : ∀ row ∈ rows, ∃ cs ∈ row, ∃ c ∈ cs, isSpace c = false)
    {ending : Chars} (hending : ending = [] ∨ ending = ['\n']) :
    parseChars (['\n'].intercalate
      (rows.map fun row => [','].intercalate (row.map csvCellChars)) ++ ending) =
      rows.map fun row => row.map exportedChars := by
  have hlines : rows.map writtenLine ≠ [] := fun h => hne (List.map_eq_nil_iff.mp h)
  have hskip : ∀ line ∈ rows.map writtenLine, Skips '\n' false false line := by
    intro line hline
    obtain ⟨row, -, rfl⟩ := List.mem_map.mp hline
    exact skips_writtenLine row
  have hcut : (rows.map writtenLine).map cut = rows.map fun row => row.map exportedChars := by
    rw [List.map_map]
    apply List.map_congr_left
    intro row hrow
    obtain ⟨cs, hcs, -⟩ := hrows row hrow
    exact cut_writtenLine (List.ne_nil_of_mem hcs)
  have hkept : (rows.map fun row => row.map exportedChars).filter notBlank =
      rows.map fun row => row.map exportedChars := by
    rw [List.filter_eq_self]
    intro exported hexported
    obtain ⟨row, hrow, rfl⟩ := List.mem_map.mp hexported
    exact notBlank_exported (hrows row hrow)
  rw [parseChars_eq]
  rcases hending with rfl | rfl
  · have htext := normalizeLines_written rows []
    rw [List.append_nil, normalizeLines_nil, List.append_nil] at htext
    rw [List.append_nil, rowsOf_of_lines hlines hskip htext, hcut, hkept]
  · have htext := normalizeLines_written rows ['\n']
    have hjoin : ['\n'].intercalate (rows.map writtenLine) ++ normalizeLines ['\n'] =
        ['\n'].intercalate (rows.map writtenLine ++ [[]]) := by
      rw [intercalate_append _ hlines (List.cons_ne_nil _ _)]
      rfl
    rw [hjoin] at htext
    have hskip' : ∀ line ∈ rows.map writtenLine ++ [[]], Skips '\n' false false line := by
      intro line hline
      rcases List.mem_append.mp hline with hline | hline
      · exact hskip line hline
      · rw [List.mem_singleton.mp hline]
        exact skips_nil '\n' false
    have hblank : notBlank (cut []) = false := by decide
    rw [rowsOf_of_lines (by simp) hskip' htext, List.map_append, hcut, List.filter_append, hkept,
      List.map_singleton, List.filter_cons_of_neg (by simp [hblank]), List.filter_nil,
      List.append_nil]

/-- A table of which each row has a cell with more than blanks comes back from its file,
each cell as it is exported; what is read of any text is the rows of the text that are not
blank, and how the lines of the text end makes no difference. -/
theorem parseCsv_writeCsv :
    (∀ table : List (List String), table ≠ [] →
      (∀ row ∈ table, ∃ cell ∈ row, trim cell ≠ "") → ∀ ending ∈ ["", "\n"],
        parseCsv (writeCsv table ++ ending) = table.map fun row => row.map exportedCell) ∧
      (∀ text : String, parseCsv text =
        ((rowsOf text.toList).filter notBlank).map fun row => row.map String.ofList) ∧
      (∀ text other : String, SameLines text.toList other.toList →
        parseCsv text = parseCsv other) := by
  refine ⟨?_, ?_, ?_⟩
  · intro table hne hrows ending hending
    have hchars : tableChars table ≠ [] := fun h => hne (List.map_eq_nil_iff.mp h)
    have hnotBlank : ∀ row ∈ tableChars table, ∃ cs ∈ row, ∃ c ∈ cs, isSpace c = false := by
      intro row hrow
      obtain ⟨cells, hcells, rfl⟩ := List.mem_map.mp hrow
      obtain ⟨cell, hcell, htrim⟩ := hrows cells hcells
      rw [ne_eq, trim_eq_empty_iff, isBlank] at htrim
      push Not at htrim
      obtain ⟨c, hc, hspace⟩ := htrim
      exact ⟨_, List.mem_map_of_mem hcell, c, hc, Bool.eq_false_iff.mpr hspace⟩
    have hend : ending.toList = [] ∨ ending.toList = ['\n'] := by
      rcases List.mem_cons.mp hending with rfl | hending
      · exact .inl (by decide)
      · rw [List.mem_singleton.mp hending]
        exact .inr (by decide)
    rw [parseCsv, String.toList_append, toList_writeCsv, parseChars_written hchars hnotBlank hend,
      tableChars, List.map_map, List.map_map]
    apply List.map_congr_left
    intro row _
    simp only [Function.comp_apply, List.map_map]
    rfl
  · intro text
    rw [parseCsv, parseChars_eq]
  · intro text other hlines
    rw [parseCsv, parseCsv, parseChars, parseChars, normalizeLines_eq_of_sameLines hlines]

/-- A formula, a cell of two lines and an empty cell; the file ends with a newline. -/
theorem parseCsv_writeCsv_formula :
    parseCsv (writeCsv [["=1", "a\r\n\"b"], ["", "c"]] ++ "\n") =
      [["'=1", "a\n\"b"], ["", "c"]] ∧ parseCsv "a\r\n,\rc" = parseCsv "a\n,\nc" := by
  have hlines : SameLines "a\r\n,\rc".toList "a\n,\nc".toList := by
    have hlast : SameLines ['c'] ['c'] := .char (by decide) (by decide) .nil
    have hcomma : SameLines [',', '\r', 'c'] [',', '\n', 'c'] :=
      .char (by decide) (by decide) (.line (.cr (by decide)) (.lf _) hlast)
    have hall : SameLines ['a', '\r', '\n', ',', '\r', 'c'] ['a', '\n', ',', '\n', 'c'] :=
      .char (by decide) (by decide) (.line (.crlf _) (.lf _) hcomma)
    exact hall
  have hread := parseCsv_writeCsv.1 [["=1", "a\r\n\"b"], ["", "c"]] (by decide)
    (by decide) "\n" (by decide)
  have hcells : [["=1", "a\r\n\"b"], ["", "c"]].map (fun row => row.map exportedCell) =
      [["'=1", "a\n\"b"], ["", "c"]] := by decide
  exact ⟨hread.trans hcells, parseCsv_writeCsv.2.2 _ _ hlines⟩

end Refearn.Sales
