import Refearn.Payouts.Nacha
/-!
# Reading an ACH file

What a bank reads in the file: the records at their line ends, the columns of each record, the
credits of the entries and the sums of the controls.
-/

namespace Refearn.Payouts.Nacha

open Support Support.IsoDate

/-! ## Columns -/

@[simp] theorem length_pr (s : List Char) (n : Nat) : (pr s n).length = n := length_leftJustified

@[simp] theorem length_pn (v : List Char) (n : Nat) : (pn v n).length = n := length_rightJustified

theorem allDigits_filter (v : List Char) : AllDigits (v.filter Char.isDigit) :=
  fun _ hc => (List.mem_filter.mp hc).2

theorem allDigits_pn (v : List Char) (n : Nat) : AllDigits (pn v n) :=
  allDigits_rightJustified (allDigits_filter v)

theorem filter_isDigit {v : List Char} (h : AllDigits v) : v.filter Char.isDigit = v :=
  List.filter_eq_self.mpr h

/-- A number in its column is read up to multiples of the power of ten. -/
theorem digitsValue_pn_decimal (m n : Nat) : digitsValue (pn (decimal m) n) = m % 10 ^ n := by
  unfold pn decimal
  rw [filter_isDigit (allDigits_toDigits m), digitsValue_rightJustified (allDigits_toDigits m),
    digitsValue_toDigits]

theorem pn_self {v : List Char} {n : Nat} (h : AllDigits v) (hlength : v.length = n) :
    pn v n = v := by
  unfold pn
  rw [filter_isDigit h, ← hlength, rightJustified_self]

/-- The years that have four digits. -/
def FourDigitYear (now : Instant) : Prop :=
  1000 ≤ monthOf (now / DAY_MILLIS) / 12 ∧ monthOf (now / DAY_MILLIS) / 12 ≤ 9999

instance instDecidableFourDigitYear (now : Instant) : Decidable (FourDigitYear now) :=
  inferInstanceAs (Decidable (_ ∧ _))

theorem length_shortYear {now : Instant} (h : FourDigitYear now) : (shortYear now).length = 2 := by
  obtain ⟨hlow, hhigh⟩ := h
  have hle : (decimal (monthOf (now / DAY_MILLIS) / 12).natAbs).length ≤ 4 :=
    (Nat.length_toDigits_le_iff (by decide) (by decide)).mpr (by omega)
  have hge : ¬ (decimal (monthOf (now / DAY_MILLIS) / 12).natAbs).length ≤ 3 := fun hle =>
    absurd ((Nat.length_toDigits_le_iff (by decide) (by decide)).mp hle) (by omega)
  have hpos : ¬ monthOf (now / DAY_MILLIS) / 12 < 0 := by omega
  simp only [shortYear, if_neg hpos, List.nil_append, List.length_drop]
  omega

theorem length_yymmdd {now : Instant} (h : FourDigitYear now) : (yymmdd now).length = 6 := by
  unfold yymmdd
  rw [List.length_append, List.length_append, length_shortYear h, length_pn, length_pn]

theorem length_hhmm (now : Instant) : (hhmm now).length = 4 := by
  unfold hhmm
  rw [List.length_append, length_pn, length_pn]

theorem length_odfi8 (cfg : AchConfig) : (odfi8 cfg).length = 8 := by
  unfold odfi8
  rw [List.length_take, length_pn]
  rfl

theorem length_recv8 (e : AchEntry) : (recv8 e).length = 8 := by
  unfold recv8
  rw [List.length_take, length_pn]
  rfl

theorem length_checkDigit (e : AchEntry) : (checkDigit e).length = 1 := by
  unfold checkDigit
  rw [List.length_drop, length_pn]

theorem length_txCode (t : AccountType) : (txCode t).length = 2 := by cases t <;> rfl

theorem length_hashStr (entries : List AchEntry) : (hashStr entries).length = 10 := length_pn _ _

/-! ## Records -/

/-- A record with these columns. -/
def HasWidths (fields : List (List Char)) (widths : List Nat) : Prop :=
  fields.map List.length = widths

theorem HasWidths.columns {fields : List (List Char)} {widths : List Nat}
    (h : HasWidths fields widths) : columns widths fields.flatten = fields :=
  h ▸ columns_flatten fields

theorem HasWidths.length {fields : List (List Char)} {widths : List Nat}
    (h : HasWidths fields widths) : fields.flatten.length = widths.sum := by
  rw [List.length_flatten]
  exact congrArg List.sum h

def ENTRY_WIDTHS : List Nat := [1, 2, 8, 1, 17, 10, 15, 22, 2, 1, 8, 7]

def BATCH_CONTROL_WIDTHS : List Nat := [1, 3, 6, 10, 12, 12, 10, 19, 6, 8, 7]

def FILE_CONTROL_WIDTHS : List Nat := [1, 6, 6, 8, 10, 12, 12, 39]

section Records

variable {toUpperCase : List Char → List Char} {cfg : AchConfig} {now : Instant}
  {entries : List AchEntry}

theorem fileHeader_widths (h : FourDigitYear now) :
    HasWidths (fileHeader toUpperCase cfg now) [1, 2, 1, 9, 10, 6, 4, 1, 3, 2, 1, 23, 23, 8] := by
  simp [HasWidths, fileHeader, length_yymmdd h, length_hhmm]

theorem batchHeader_widths (h : FourDigitYear now) :
    HasWidths (batchHeader toUpperCase cfg now) [1, 3, 16, 20, 10, 3, 10, 6, 6, 3, 1, 8, 7] := by
  simp [HasWidths, batchHeader, length_yymmdd h, length_odfi8]

theorem entryDetail_widths (e : AchEntry) (i : Nat) :
    HasWidths (entryDetail toUpperCase cfg e i) ENTRY_WIDTHS := by
  simp [HasWidths, entryDetail, ENTRY_WIDTHS, length_txCode, length_recv8, length_checkDigit,
    length_odfi8]

theorem batchControl_widths : HasWidths (batchControl cfg entries) BATCH_CONTROL_WIDTHS := by
  simp [HasWidths, batchControl, BATCH_CONTROL_WIDTHS, length_hashStr, length_odfi8]

theorem fileControl_widths (blocks : Nat) :
    HasWidths (fileControl blocks entries) FILE_CONTROL_WIDTHS := by
  simp [HasWidths, fileControl, FILE_CONTROL_WIDTHS, length_hashStr]

/-- Nines up to the end of the block. -/
theorem fillBlock_eq (lines : List (List Char)) :
    fillBlock lines = lines ++ List.replicate ((10 - lines.length % 10) % 10) filler := by
  fun_induction fillBlock lines with
  | case1 lines h => simp [h]
  | case2 lines h ih =>
      have hone : (10 - lines.length % 10) % 10 =
          (10 - (lines ++ [filler]).length % 10) % 10 + 1 := by
        rw [List.length_append, List.length_singleton]
        omega
      rw [ih, hone, List.replicate_succ, List.append_assoc]
      rfl

theorem length_batchLines :
    (batchLines toUpperCase cfg now entries).length = entries.length + 3 := by
  simp [batchLines]

variable (toUpperCase cfg now entries) in
theorem length_nachaLines :
    (nachaLines toUpperCase entries cfg now).length = 10 * ((entries.length + 13) / 10) := by
  unfold nachaLines
  rw [fillBlock_eq, List.length_append, List.length_append, List.length_replicate,
    List.length_singleton, length_batchLines]
  omega

/-- Every record is one of six kinds. -/
theorem mem_nachaLines {line : List Char} (h : line ∈ nachaLines toUpperCase entries cfg now) :
    line = (fileHeader toUpperCase cfg now).flatten ∨
      line = (batchHeader toUpperCase cfg now).flatten ∨
      (∃ i e, e ∈ entries ∧ line = (entryDetail toUpperCase cfg e i).flatten) ∨
      line = (batchControl cfg entries).flatten ∨
      (∃ blocks, line = (fileControl blocks entries).flatten) ∨ line = filler := by
  unfold nachaLines batchLines at h
  rw [fillBlock_eq] at h
  simp only [List.mem_append, List.mem_cons, List.mem_replicate, List.mem_mapIdx,
    List.not_mem_nil, or_false, or_assoc] at h
  rcases h with h | h | ⟨i, hi, h⟩ | h | h | ⟨-, h⟩
  · exact .inl h
  · exact .inr (.inl h)
  · exact .inr (.inr (.inl ⟨i, _, List.getElem_mem hi, h.symm⟩))
  · exact .inr (.inr (.inr (.inl h)))
  · exact .inr (.inr (.inr (.inr (.inl ⟨_, h⟩))))
  · exact .inr (.inr (.inr (.inr (.inr h))))

theorem length_of_mem_nachaLines (hnow : FourDigitYear now) {line : List Char}
    (h : line ∈ nachaLines toUpperCase entries cfg now) : line.length = 94 := by
  rcases mem_nachaLines h with rfl | rfl | ⟨i, e, -, rfl⟩ | rfl | ⟨blocks, rfl⟩ | rfl
  · exact (fileHeader_widths hnow).length
  · exact (batchHeader_widths hnow).length
  · exact (entryDetail_widths e i).length
  · exact batchControl_widths.length
  · exact (fileControl_widths blocks).length
  · exact List.length_replicate

theorem buildNachaFile_eq :
    buildNachaFile toUpperCase entries cfg now =
      (nachaLines toUpperCase entries cfg now).flatMap fun line => line ++ ['\n'] := by
  refine intercalate_append_singleton fun hnil => ?_
  have hlength := length_nachaLines toUpperCase cfg now entries
  rw [hnil, List.length_nil] at hlength
  omega

end Records

/-! ## Line ends -/

section Newlines

variable {toUpperCase : List Char → List Char} {cfg : AchConfig} {now : Instant}
  {entries : List AchEntry}

theorem newline_notMem_of_digits {v : List Char} (h : AllDigits v) : '\n' ∉ v := fun hmem =>
  absurd (h _ hmem) (by decide)

@[simp] theorem newline_notMem_pn (v : List Char) (n : Nat) : '\n' ∉ pn v n :=
  newline_notMem_of_digits (allDigits_pn v n)

theorem newline_notMem_pr {s : List Char} (h : '\n' ∉ s) (n : Nat) : '\n' ∉ pr s n :=
  fun hmem => (mem_leftJustified hmem).elim h (by decide)

@[simp] theorem newline_notMem_odfi8 (cfg : AchConfig) : '\n' ∉ odfi8 cfg := fun hmem =>
  newline_notMem_pn _ _ (List.mem_of_mem_take hmem)

@[simp] theorem newline_notMem_recv8 (e : AchEntry) : '\n' ∉ recv8 e := fun hmem =>
  newline_notMem_pn _ _ (List.mem_of_mem_take hmem)

@[simp] theorem newline_notMem_checkDigit (e : AchEntry) : '\n' ∉ checkDigit e := fun hmem =>
  newline_notMem_pn _ _ (List.mem_of_mem_drop hmem)

@[simp] theorem newline_notMem_hashStr (entries : List AchEntry) : '\n' ∉ hashStr entries :=
  newline_notMem_pn _ _

@[simp] theorem newline_notMem_txCode (t : AccountType) : '\n' ∉ txCode t := by
  cases t <;> decide

theorem newline_notMem_shortYear (now : Instant) : '\n' ∉ shortYear now := by
  intro hmem
  rcases List.mem_append.mp (List.mem_of_mem_drop hmem) with h | h
  · split_ifs at h
    · exact absurd h (by decide)
    · cases h
  · exact newline_notMem_of_digits (allDigits_toDigits _) h

@[simp] theorem newline_notMem_yymmdd (now : Instant) : '\n' ∉ yymmdd now := by
  simp [yymmdd, newline_notMem_shortYear]

@[simp] theorem newline_notMem_hhmm (now : Instant) : '\n' ∉ hhmm now := by simp [hhmm]

/-- `toUpperCase` makes no line end. -/
def KeepsLines (toUpperCase : List Char → List Char) : Prop :=
  ∀ s, '\n' ∈ toUpperCase s → '\n' ∈ s

end Newlines

/-! ## What a bank reads -/

/-- One credit of the file. -/
structure BankCredit where
  routingNumber : List Char
  accountNumber : List Char
  accountType : AccountType
  amountCents : Nat
  deriving DecidableEq

/-- The sums of a control record. -/
structure ControlSums where
  entryCount : Nat
  entryHash : Nat
  debitCents : Nat
  creditCents : Nat
  deriving DecidableEq

/-- The text in one column of a record. -/
def field (widths : List Nat) (line : List Char) (i : Nat) : List Char :=
  (columns widths line).getD i []

def readCredit (line : List Char) : BankCredit where
  routingNumber := field ENTRY_WIDTHS line 2 ++ field ENTRY_WIDTHS line 3
  accountNumber := (field ENTRY_WIDTHS line 4).rdropWhile fun c => decide (c = ' ')
  accountType := if field ENTRY_WIDTHS line 1 = txCode .savings then .savings else .checking
  amountCents := digitsValue (field ENTRY_WIDTHS line 5)

def readTrace (line : List Char) : Nat := digitsValue (field ENTRY_WIDTHS line 11)

def readBatchControl (line : List Char) : ControlSums where
  entryCount := digitsValue (field BATCH_CONTROL_WIDTHS line 2)
  entryHash := digitsValue (field BATCH_CONTROL_WIDTHS line 3)
  debitCents := digitsValue (field BATCH_CONTROL_WIDTHS line 4)
  creditCents := digitsValue (field BATCH_CONTROL_WIDTHS line 5)

def readFileControl (line : List Char) : Nat × ControlSums :=
  (digitsValue (field FILE_CONTROL_WIDTHS line 2),
    { entryCount := digitsValue (field FILE_CONTROL_WIDTHS line 3)
      entryHash := digitsValue (field FILE_CONTROL_WIDTHS line 4)
      debitCents := digitsValue (field FILE_CONTROL_WIDTHS line 5)
      creditCents := digitsValue (field FILE_CONTROL_WIDTHS line 6) })

def isKind (kind : Char) (line : List Char) : Bool := line.head? = some kind

/-- A file as a bank reads it: the credits with their trace numbers, and the two controls, the
second with the number of blocks. -/
structure BankFile where
  credits : List BankCredit
  traces : List Nat
  batchControl : Option ControlSums
  fileControl : Option (Nat × ControlSums)
  deriving DecidableEq

def readFile (text : List Char) : BankFile :=
  let lines := text.splitOn '\n'
  { credits := (lines.filter (isKind '6')).map readCredit
    traces := (lines.filter (isKind '6')).map readTrace
    batchControl := (lines.find? (isKind '8')).map readBatchControl
    fileControl := (lines.find? (isKind '9')).map readFileControl }

/-! ## Reading what was written -/

/-- An entry whose numbers fit their columns, with an account number that does not end in a
blank. -/
structure AchEntry.Fits (e : AchEntry) : Prop where
  routingDigits : AllDigits e.routingNumber
  routingLength : e.routingNumber.length = 9
  accountLength : e.accountNumber.length ≤ 17
  accountEnd : e.accountNumber.getLast? ≠ some ' '
  amount : e.amountCents < 10 ^ 10

def AchEntry.credit (e : AchEntry) : BankCredit where
  routingNumber := e.routingNumber
  accountNumber := e.accountNumber
  accountType := e.accountType
  amountCents := e.amountCents

/-- The sums of the entries, each in as many digits as its column has. -/
def controlSums (countDigits : Nat) (entries : List AchEntry) : ControlSums where
  entryCount := entries.length % 10 ^ countDigits
  entryHash := (entries.map fun e => digitsValue (recv8 e)).sum % 10 ^ 10
  debitCents := 0
  creditCents := totalCredit entries % 10 ^ 12

section Reading

variable {toUpperCase : List Char → List Char} {cfg : AchConfig} {now : Instant}
  {entries : List AchEntry}

theorem field_entryDetail (e : AchEntry) (i n : Nat) :
    field ENTRY_WIDTHS (entryDetail toUpperCase cfg e i).flatten n =
      (entryDetail toUpperCase cfg e i).getD n [] :=
  congrArg (List.getD · n []) (entryDetail_widths e i).columns

theorem field_batchControl (n : Nat) :
    field BATCH_CONTROL_WIDTHS (batchControl cfg entries).flatten n =
      (batchControl cfg entries).getD n [] :=
  congrArg (List.getD · n []) batchControl_widths.columns

theorem field_fileControl (blocks n : Nat) :
    field FILE_CONTROL_WIDTHS (fileControl blocks entries).flatten n =
      (fileControl blocks entries).getD n [] :=
  congrArg (List.getD · n []) (fileControl_widths blocks).columns

theorem recv8_append_checkDigit (e : AchEntry) :
    recv8 e ++ checkDigit e = pn e.routingNumber 9 := List.take_append_drop _ _

theorem txCode_eq_savings (t : AccountType) :
    (if txCode t = txCode .savings then AccountType.savings else .checking) = t := by
  cases t <;> decide

theorem readCredit_entryDetail {e : AchEntry} (h : e.Fits) (i : Nat) :
    readCredit (entryDetail toUpperCase cfg e i).flatten = e.credit := by
  have hrouting : pn e.routingNumber 9 = e.routingNumber :=
    pn_self h.routingDigits h.routingLength
  have hamount : digitsValue (pn (decimal e.amountCents) 10) = e.amountCents := by
    rw [digitsValue_pn_decimal, Nat.mod_eq_of_lt h.amount]
  have haccount : (pr e.accountNumber 17).rdropWhile (fun c => decide (c = ' ')) =
      e.accountNumber := rdropWhile_leftJustified h.accountLength h.accountEnd
  unfold readCredit AchEntry.credit
  simp only [field_entryDetail]
  simp only [entryDetail, List.getD_cons_succ, List.getD_cons_zero]
  rw [recv8_append_checkDigit, hrouting, hamount, haccount, txCode_eq_savings]

theorem readTrace_entryDetail (e : AchEntry) (i : Nat) :
    readTrace (entryDetail toUpperCase cfg e i).flatten = (i + 1) % 10 ^ 7 := by
  unfold readTrace
  rw [field_entryDetail]
  exact digitsValue_pn_decimal (i + 1) 7

theorem digitsValue_hashStr (entries : List AchEntry) :
    digitsValue (hashStr entries) =
      (entries.map fun e => digitsValue (recv8 e)).sum % 10 ^ 10 := by
  unfold hashStr
  rw [digitsValue_pn_decimal]
  exact Nat.mod_mod _ _

theorem readBatchControl_batchControl :
    readBatchControl (batchControl cfg entries).flatten = controlSums 6 entries := by
  unfold readBatchControl controlSums
  simp only [field_batchControl]
  simp only [batchControl, List.getD_cons_succ, List.getD_cons_zero, digitsValue_pn_decimal,
    digitsValue_hashStr, Nat.zero_mod]

theorem readFileControl_fileControl (blocks : Nat) :
    readFileControl (fileControl blocks entries).flatten =
      (blocks % 10 ^ 6, controlSums 8 entries) := by
  unfold readFileControl controlSums
  simp only [field_fileControl]
  simp only [fileControl, List.getD_cons_succ, List.getD_cons_zero, digitsValue_pn_decimal,
    digitsValue_hashStr, Nat.zero_mod]

end Reading

/-! ## Records by kind -/

section Kinds

variable {toUpperCase : List Char → List Char} {cfg : AchConfig} {now : Instant}
  {entries : List AchEntry}

theorem isKind_fileHeader (kind : Char) :
    isKind kind (fileHeader toUpperCase cfg now).flatten = decide ('1' = kind) := by
  simp [isKind, fileHeader]

theorem isKind_batchHeader (kind : Char) :
    isKind kind (batchHeader toUpperCase cfg now).flatten = decide ('5' = kind) := by
  simp [isKind, batchHeader]

theorem isKind_entryDetail (kind : Char) (e : AchEntry) (i : Nat) :
    isKind kind (entryDetail toUpperCase cfg e i).flatten = decide ('6' = kind) := by
  simp [isKind, entryDetail]

theorem isKind_batchControl (kind : Char) :
    isKind kind (batchControl cfg entries).flatten = decide ('8' = kind) := by
  simp [isKind, batchControl]

theorem isKind_fileControl (kind : Char) (blocks : Nat) :
    isKind kind (fileControl blocks entries).flatten = decide ('9' = kind) := by
  simp [isKind, fileControl]

theorem isKind_filler (kind : Char) : isKind kind filler = decide ('9' = kind) := by
  simp [isKind, filler]

/-- The records of the entries. -/
def entryLines (toUpperCase : List Char → List Char) (cfg : AchConfig) (entries : List AchEntry) :
    List (List Char) :=
  entries.mapIdx fun i e => (entryDetail toUpperCase cfg e i).flatten

theorem isKind_of_mem_entryLines {line : List Char} (kind : Char)
    (h : line ∈ entryLines toUpperCase cfg entries) : isKind kind line = decide ('6' = kind) := by
  obtain ⟨i, hi, rfl⟩ := List.mem_mapIdx.mp h
  exact isKind_entryDetail kind _ i

variable (toUpperCase cfg now entries) in
/-- The records in their order. -/
theorem nachaLines_eq :
    ∃ n, nachaLines toUpperCase entries cfg now =
      (fileHeader toUpperCase cfg now).flatten :: (batchHeader toUpperCase cfg now).flatten ::
        (entryLines toUpperCase cfg entries ++ ((batchControl cfg entries).flatten ::
          (fileControl ((entries.length + 13) / 10) entries).flatten ::
            List.replicate n filler)) := by
  refine ⟨(10 - (entries.length + 3 + 1) % 10) % 10, ?_⟩
  unfold nachaLines
  rw [fillBlock_eq]
  simp only [blockCount, List.length_append, length_batchLines, List.length_singleton]
  simp only [batchLines, entryLines, List.cons_append, List.append_assoc, List.nil_append]

theorem filter_entries :
    (nachaLines toUpperCase entries cfg now).filter (isKind '6') =
      entryLines toUpperCase cfg entries := by
  obtain ⟨n, hlines⟩ := nachaLines_eq toUpperCase cfg now entries
  have hentries : (entryLines toUpperCase cfg entries).filter (isKind '6') =
      entryLines toUpperCase cfg entries :=
    List.filter_eq_self.mpr fun line hline => isKind_of_mem_entryLines '6' hline
  simp [hlines, hentries, isKind_fileHeader, isKind_batchHeader, isKind_batchControl,
    isKind_fileControl, isKind_filler]

theorem find_batchControl :
    (nachaLines toUpperCase entries cfg now).find? (isKind '8') =
      some (batchControl cfg entries).flatten := by
  obtain ⟨n, hlines⟩ := nachaLines_eq toUpperCase cfg now entries
  have hentries : (entryLines toUpperCase cfg entries).find? (isKind '8') = none :=
    List.find?_eq_none.mpr fun line hline => by
      rw [isKind_of_mem_entryLines '8' hline]
      decide
  simp [hlines, hentries, isKind_fileHeader, isKind_batchHeader, isKind_batchControl]

theorem find_fileControl :
    (nachaLines toUpperCase entries cfg now).find? (isKind '9') =
      some (fileControl ((entries.length + 13) / 10) entries).flatten := by
  obtain ⟨n, hlines⟩ := nachaLines_eq toUpperCase cfg now entries
  have hentries : (entryLines toUpperCase cfg entries).find? (isKind '9') = none :=
    List.find?_eq_none.mpr fun line hline => by
      rw [isKind_of_mem_entryLines '9' hline]
      decide
  simp [hlines, hentries, isKind_fileHeader, isKind_batchHeader, isKind_batchControl,
    isKind_fileControl]

/-- Where no record has a line end, the credits, trace numbers and sums that a bank reads are
those of the entries. -/
theorem readFile_of_lines (hlines : ∀ line ∈ nachaLines toUpperCase entries cfg now, '\n' ∉ line)
    (hfits : ∀ e ∈ entries, e.Fits) :
    readFile (buildNachaFile toUpperCase entries cfg now) =
      { credits := entries.map AchEntry.credit
        traces := (List.range entries.length).map fun i => (i + 1) % 10 ^ 7
        batchControl := some (controlSums 6 entries)
        fileControl := some ((entries.length + 13) / 10 % 10 ^ 6, controlSums 8 entries) } := by
  have hsplit : (buildNachaFile toUpperCase entries cfg now).splitOn '\n' =
      nachaLines toUpperCase entries cfg now ++ [[]] := by
    rw [buildNachaFile_eq]
    exact splitOn_flatMap hlines
  have hcredits : (entryLines toUpperCase cfg entries).map readCredit =
      entries.map AchEntry.credit := by
    unfold entryLines
    refine List.ext_getElem (by simp) fun i hi hi' => ?_
    rw [List.getElem_map, List.getElem_mapIdx, List.getElem_map]
    exact readCredit_entryDetail (hfits _ (List.getElem_mem _)) i
  have htraces : (entryLines toUpperCase cfg entries).map readTrace =
      (List.range entries.length).map fun i => (i + 1) % 10 ^ 7 := by
    unfold entryLines
    refine List.ext_getElem (by simp) fun i hi hi' => ?_
    rw [List.getElem_map, List.getElem_mapIdx, List.getElem_map, List.getElem_range]
    exact readTrace_entryDetail _ i
  have hnone : [([] : List Char)].filter (isKind '6') = [] := rfl
  unfold readFile
  simp only [hsplit, List.filter_append, List.find?_append, filter_entries, find_batchControl,
    find_fileControl, hnone, List.append_nil, hcredits, htraces, Option.some_or, Option.map_some,
    readBatchControl_batchControl, readFileControl_fileControl]

end Kinds

/-! ## The texts that are printed -/

theorem newline_mem_pr {s : List Char} {n : Nat} : '\n' ∈ pr s n ↔ '\n' ∈ s.take n := by
  unfold pr leftJustified
  rw [List.take_append, List.mem_append]
  refine ⟨fun h => h.elim id fun hblank => ?_, .inl⟩
  exact absurd (List.eq_of_mem_replicate (List.mem_of_mem_take hblank)) (by decide)

/-- What is printed of the configuration has no line end. -/
structure AchConfig.PrintsOneLine (toUpperCase : List Char → List Char) (cfg : AchConfig) :
    Prop where
  companyName : '\n' ∉ (toUpperCase cfg.companyName).take 23
  companyId : '\n' ∉ cfg.companyId.take 10
  entryDescription : '\n' ∉ (toUpperCase (cfg.entryDescription.getD "PAYOUT".toList)).take 10

/-- What is printed of the entry has none. -/
structure AchEntry.PrintsOneLine (toUpperCase : List Char → List Char) (e : AchEntry) : Prop where
  accountNumber : '\n' ∉ e.accountNumber.take 17
  id : '\n' ∉ (e.id.filter (· ≠ '-')).take 15
  name : '\n' ∉ (toUpperCase e.name).take 22

section Printed

variable {toUpperCase : List Char → List Char} {cfg : AchConfig} {now : Instant}
  {entries : List AchEntry}

theorem newline_notMem_fileHeader :
    '\n' ∉ (fileHeader toUpperCase cfg now).flatten ↔
      '\n' ∉ (toUpperCase cfg.companyName).take 23 := by
  simp [fileHeader, newline_mem_pr]

theorem newline_notMem_batchHeader :
    '\n' ∉ (batchHeader toUpperCase cfg now).flatten ↔
      '\n' ∉ (toUpperCase cfg.companyName).take 16 ∧ '\n' ∉ cfg.companyId.take 10 ∧
        '\n' ∉ (toUpperCase (cfg.entryDescription.getD "PAYOUT".toList)).take 10 := by
  unfold batchHeader
  generalize toUpperCase (cfg.entryDescription.getD "PAYOUT".toList) = shown
  simp [newline_mem_pr]

theorem newline_notMem_entryDetail (e : AchEntry) (i : Nat) :
    '\n' ∉ (entryDetail toUpperCase cfg e i).flatten ↔ e.PrintsOneLine toUpperCase := by
  have hrecord : '\n' ∉ (entryDetail toUpperCase cfg e i).flatten ↔
      '\n' ∉ e.accountNumber.take 17 ∧ '\n' ∉ (e.id.filter (· ≠ '-')).take 15 ∧
        '\n' ∉ (toUpperCase e.name).take 22 := by
    unfold entryDetail
    generalize e.id.filter (· ≠ '-') = shownId
    simp [newline_mem_pr, List.take_take]
  exact hrecord.trans
    ⟨fun ⟨haccount, hid, hname⟩ => ⟨haccount, hid, hname⟩,
      fun ⟨haccount, hid, hname⟩ => ⟨haccount, hid, hname⟩⟩

theorem newline_notMem_batchControl :
    '\n' ∉ (batchControl cfg entries).flatten ↔ '\n' ∉ cfg.companyId.take 10 := by
  simp [batchControl, newline_mem_pr]

variable (now) in
/-- The records are one line each where the texts that are printed are. -/
theorem lines_oneLine_iff :
    (∀ line ∈ nachaLines toUpperCase entries cfg now, '\n' ∉ line) ↔
      cfg.PrintsOneLine toUpperCase ∧ ∀ e ∈ entries, e.PrintsOneLine toUpperCase := by
  constructor
  · intro h
    obtain ⟨n, hlines⟩ := nachaLines_eq toUpperCase cfg now entries
    rw [hlines] at h
    have hfile := newline_notMem_fileHeader.mp (h _ List.mem_cons_self)
    have hbatch := newline_notMem_batchHeader.mp
      (h _ (List.mem_cons_of_mem _ List.mem_cons_self))
    refine ⟨⟨hfile, hbatch.2.1, hbatch.2.2⟩, fun e he => ?_⟩
    obtain ⟨i, hi, rfl⟩ := List.getElem_of_mem he
    have hline : '\n' ∉ (entryDetail toUpperCase cfg entries[i] i).flatten :=
      h _ (List.mem_cons_of_mem _ (List.mem_cons_of_mem _ (List.mem_append_left _
        (List.mem_mapIdx.mpr ⟨i, hi, rfl⟩))))
    exact (newline_notMem_entryDetail _ i).mp hline
  · rintro ⟨hcfg, hentries⟩ line h
    rcases mem_nachaLines h with rfl | rfl | ⟨i, e, he, rfl⟩ | rfl | ⟨blocks, rfl⟩ | rfl
    · exact newline_notMem_fileHeader.mpr hcfg.companyName
    · have hshort : '\n' ∉ (toUpperCase cfg.companyName).take 16 := fun hmem =>
        hcfg.companyName (List.take_subset_take_left _ (by decide) hmem)
      exact newline_notMem_batchHeader.mpr ⟨hshort, hcfg.companyId, hcfg.entryDescription⟩
    · exact (newline_notMem_entryDetail e i).mpr (hentries e he)
    · exact newline_notMem_batchControl.mpr hcfg.companyId
    · simp [fileControl, newline_notMem_pr]
    · exact fun hmem => absurd (List.eq_of_mem_replicate hmem) (by decide)

end Printed

/-! ## The paid payouts -/

/-- What the checks of a profile leave. -/
structure BankProfile.Checked (prof : BankProfile) : Prop where
  routingDigits : AllDigits prof.routingNumber
  routingLength : prof.routingNumber.length = 9
  legalName : '\n' ∉ prof.legalName

/-- What they leave of a routing number. -/
structure BankProfile.RoutingChecked (prof : BankProfile) : Prop where
  routingDigits : AllDigits prof.routingNumber
  routingLength : prof.routingNumber.length = 9

/-- What they leave of an account number, once it is decrypted. -/
def OpensToAccounts (decrypt : List Char → Uuid → Uuid → Option (List Char)) : Prop :=
  ∀ enc tenantId membershipId account, decrypt enc tenantId membershipId = some account →
    AllDigits account ∧ account.length ≤ 17

/-- The credit that pays a payout. -/
def PaidPayout.bankCredit (decrypt : List Char → Uuid → Uuid → Option (List Char))
    (p : PaidPayout) : Option BankCredit :=
  match p.bankAccount with
  | .error _ => none
  | .ok (prof, enc) =>
      (decrypt enc p.tenantId p.membershipId).map fun account =>
        { routingNumber := prof.routingNumber, accountNumber := account
          accountType := prof.accountType, amountCents := p.totalCents.toNat }

/-- What is reported of a payout without a bank account. -/
def PaidPayout.omission (p : PaidPayout) : Option Skipped :=
  match p.bankAccount with
  | .error reason => some (p.skipped reason)
  | .ok _ => none

def BankCredit.cents (c : BankCredit) : Int := c.amountCents

/-- The sums of credits, each in as many digits as its column has. -/
def creditSums (countDigits : Nat) (credits : List BankCredit) : ControlSums where
  entryCount := credits.length % 10 ^ countDigits
  entryHash := (credits.map fun c => digitsValue (c.routingNumber.take 8)).sum % 10 ^ 10
  debitCents := 0
  creditCents := (credits.map BankCredit.amountCents).sum % 10 ^ 12

section Collect

variable {decrypt : List Char → Uuid → Uuid → Option (List Char)} {p : PaidPayout}
  {prof : BankProfile} {enc : List Char} {e : AchEntry} {error : AchError}
  {payouts : List PaidPayout} {entries : List AchEntry} {skipped : List Skipped}

theorem newline_notMem_chars (id : Uuid) : '\n' ∉ id.chars := by
  intro hmem
  have hdigits : '\n' ∈ id.chars.filter (· ≠ '-') := List.mem_filter.mpr ⟨hmem, by decide⟩
  rw [id.filter_chars] at hdigits
  exact absurd (mem_fixedHex hdigits) (by decide)

theorem bankAccount_profile (h : p.bankAccount = .ok (prof, enc)) :
    p.payoutProfile = some prof := by
  unfold PaidPayout.bankAccount at h
  split at h
  · cases h
  · rename_i hprof
    split at h
    · cases h
    · cases h
    · cases h
      exact hprof

theorem entry_of_ok (h : p.entry decrypt prof enc = .ok e) :
    (0 ≤ p.totalCents ∧ p.totalCents ≤ 9999999999) ∧
      ∃ account, decrypt enc p.tenantId p.membershipId = some account ∧
        e = { routingNumber := prof.routingNumber, accountNumber := account
              accountType := prof.accountType, amountCents := p.totalCents.toNat
              name := prof.legalName, id := p.membershipId.chars } := by
  unfold PaidPayout.entry at h
  split at h
  · cases h
  · rename_i hlimit
    split at h
    · cases h
    · rename_i account haccount
      cases h
      exact ⟨by omega, account, haccount, rfl⟩

/-- What an entry of the file was made from. -/
def MadeFrom (decrypt : List Char → Uuid → Uuid → Option (List Char)) (p : PaidPayout)
    (e : AchEntry) : Prop :=
  ∃ prof enc, p.bankAccount = .ok (prof, enc) ∧ p.entry decrypt prof enc = .ok e

theorem MadeFrom.bankCredit (h : MadeFrom decrypt p e) :
    p.bankCredit decrypt = some e.credit ∧ p.totalCents = e.amountCents ∧
      p.omission = none := by
  obtain ⟨prof, enc, hbank, hentry⟩ := h
  obtain ⟨hlimit, account, haccount, rfl⟩ := entry_of_ok hentry
  refine ⟨?_, (Int.toNat_of_nonneg hlimit.1).symm, ?_⟩
  · unfold PaidPayout.bankCredit
    rw [hbank]
    simp only [haccount]
    rfl
  · unfold PaidPayout.omission
    rw [hbank]

theorem MadeFrom.fits (h : MadeFrom decrypt p e) (haccounts : OpensToAccounts decrypt)
    (hprofile : ∀ prof, p.payoutProfile = some prof → prof.RoutingChecked) : e.Fits := by
  obtain ⟨prof, enc, hbank, hentry⟩ := h
  obtain ⟨hlimit, account, haccount, rfl⟩ := entry_of_ok hentry
  obtain ⟨hdigits, hlength⟩ := haccounts _ _ _ _ haccount
  obtain ⟨hrouting, hnine⟩ := hprofile prof (bankAccount_profile hbank)
  have hblank : account.getLast? ≠ some ' ' := fun hlast =>
    absurd (hdigits _ (List.mem_of_getLast? hlast)) (by decide)
  exact ⟨hrouting, hnine, hlength, hblank, by
    show p.totalCents.toNat < 10 ^ 10
    omega⟩

theorem MadeFrom.accountDigits (h : MadeFrom decrypt p e) (haccounts : OpensToAccounts decrypt) :
    AllDigits e.accountNumber := by
  obtain ⟨prof, enc, hbank, hentry⟩ := h
  obtain ⟨-, account, haccount, rfl⟩ := entry_of_ok hentry
  exact (haccounts _ _ _ _ haccount).1

theorem MadeFrom.newline_notMem_id (h : MadeFrom decrypt p e) : '\n' ∉ e.id := by
  obtain ⟨prof, enc, hbank, hentry⟩ := h
  obtain ⟨-, account, -, rfl⟩ := entry_of_ok hentry
  exact newline_notMem_chars _

theorem MadeFrom.name (h : MadeFrom decrypt p e) :
    ∃ prof enc, p.bankAccount = .ok (prof, enc) ∧ e.name = prof.legalName := by
  obtain ⟨prof, enc, hbank, hentry⟩ := h
  obtain ⟨-, account, -, rfl⟩ := entry_of_ok hentry
  exact ⟨prof, enc, hbank, rfl⟩

/-- One turn of the loop. -/
theorem collect_cons_of_ok (h : collect decrypt (p :: payouts) = .ok (entries, skipped)) :
    ∃ entries' skipped', collect decrypt payouts = .ok (entries', skipped') ∧
      ((∃ reason, p.bankAccount = .error reason ∧ entries = entries' ∧
          skipped = p.skipped reason :: skipped') ∨
        ∃ e, MadeFrom decrypt p e ∧ entries = e :: entries' ∧ skipped = skipped') := by
  rw [collect] at h
  split at h
  · rename_i reason hbank
    cases hrest : collect decrypt payouts with
    | error error => rw [hrest] at h; cases h
    | ok rest =>
        rw [hrest] at h
        cases h
        exact ⟨_, _, rfl, .inl ⟨reason, hbank, rfl, rfl⟩⟩
  · rename_i prof enc hbank
    cases hentry : p.entry decrypt prof enc with
    | error error => rw [hentry] at h; cases h
    | ok e =>
        rw [hentry] at h
        cases hrest : collect decrypt payouts with
        | error error => rw [hrest] at h; cases h
        | ok rest =>
            rw [hrest] at h
            cases h
            exact ⟨_, _, rfl, .inr ⟨e, ⟨prof, enc, hbank, hentry⟩, rfl, rfl⟩⟩

/-- The loop makes an entry of every payout with a bank account and reports the others. -/
theorem collect_of_ok (h : collect decrypt payouts = .ok (entries, skipped)) :
    (∀ e ∈ entries, ∃ p ∈ payouts, MadeFrom decrypt p e) ∧
      entries.map AchEntry.credit = payouts.filterMap (PaidPayout.bankCredit decrypt) ∧
      skipped = payouts.filterMap PaidPayout.omission ∧
      ((entries.map AchEntry.credit).map BankCredit.cents).sum +
        ((payouts.filter (·.omission.isSome)).map PaidPayout.totalCents).sum =
          (payouts.map PaidPayout.totalCents).sum := by
  induction payouts generalizing entries skipped with
  | nil =>
      cases h
      exact ⟨nofun, rfl, rfl, rfl⟩
  | cons p payouts ih =>
      obtain ⟨entries', skipped', hrest, hturn⟩ := collect_cons_of_ok h
      obtain ⟨hmade, hcredits, hskipped, hcents⟩ := ih hrest
      rcases hturn with ⟨reason, hbank, rfl, rfl⟩ | ⟨e, hfrom, rfl, rfl⟩
      · have hcredit : p.bankCredit decrypt = none := by
          unfold PaidPayout.bankCredit
          rw [hbank]
        have homission : p.omission = some (p.skipped reason) := by
          unfold PaidPayout.omission
          rw [hbank]
        refine ⟨fun e he => ?_, ?_, ?_, ?_⟩
        · obtain ⟨p', hp', hfrom⟩ := hmade e he
          exact ⟨p', List.mem_cons_of_mem _ hp', hfrom⟩
        · rw [List.filterMap_cons_none hcredit, hcredits]
        · rw [List.filterMap_cons_some homission, hskipped]
        · rw [List.filter_cons_of_pos (by rw [homission]; rfl), List.map_cons, List.map_cons,
            List.sum_cons, List.sum_cons]
          omega
      · obtain ⟨hcredit, htotal, homission⟩ := hfrom.bankCredit
        refine ⟨fun e' he' => ?_, ?_, ?_, ?_⟩
        · rcases List.mem_cons.mp he' with rfl | he'
          · exact ⟨p, List.mem_cons_self, hfrom⟩
          · obtain ⟨p', hp', hfrom'⟩ := hmade e' he'
            exact ⟨p', List.mem_cons_of_mem _ hp', hfrom'⟩
        · rw [List.filterMap_cons_some hcredit, List.map_cons, hcredits]
        · rw [List.filterMap_cons_none homission, hskipped]
        · have hcents' : e.credit.cents = p.totalCents := htotal.symm
          rw [List.filter_cons_of_neg (by rw [homission]; exact Bool.false_ne_true),
            List.map_cons, List.map_cons, List.map_cons, List.sum_cons, List.sum_cons, hcents']
          omega

end Collect

/-! ## Layout -/

theorem AchEntry.Fits.recv8_eq {e : AchEntry} (h : e.Fits) :
    recv8 e = e.credit.routingNumber.take 8 :=
  congrArg (List.take 8) (pn_self h.routingDigits h.routingLength)

theorem controlSums_eq {entries : List AchEntry} (h : ∀ e ∈ entries, e.Fits) (n : Nat) :
    controlSums n entries = creditSums n (entries.map AchEntry.credit) := by
  have hhash : entries.map (fun e => digitsValue (recv8 e)) =
      (entries.map AchEntry.credit).map fun c => digitsValue (c.routingNumber.take 8) := by
    rw [List.map_map]
    exact List.map_congr_left fun e he => congrArg digitsValue (h e he).recv8_eq
  have hcents : entries.map AchEntry.amountCents =
      (entries.map AchEntry.credit).map BankCredit.amountCents := by
    rw [List.map_map]
    rfl
  unfold controlSums creditSums totalCredit
  rw [hhash, hcents, List.length_map]

namespace Demo

/-- A paid payout of one dollar. -/
def paid (id membershipId : Uuid) (paidAt : Instant) : Payout where
  id := id
  tenantId := 1
  membershipId := membershipId
  batchId := none
  totalCents := 100
  method := .manual
  status := .paid
  period := "2026-06"
  activeKey := none
  processingStartedAt := none
  paidAt := some paidAt
  settledAt := none
  settlementReference := none
  settlementEvidence := none
  recipientReferralCode := none
  recipientFullName := none
  recipientEmail := none
  complianceSnapshot := none
  rejectedAt := none
  rejectionReason := none
  failedAt := none
  failureReason := none
  ref := none
  createdAt := 0

def payouts : Table Payout where
  rows := [paid 8 2 20, paid 7 1 10]
  keys_nodup := by decide
  no_clash := by decide

/-- The first member has a bank account, the second has not entered any. -/
def payees (id : Uuid) : Payee where
  fullName := "JO".toList
  payoutProfile :=
    if id = 1 then some ⟨"JANE DOE".toList, "021000021".toList, .savings, some "v1".toList⟩
    else none

def decrypt (enc : List Char) (_ _ : Uuid) : Option (List Char) :=
  if enc = "v1".toList then some "000987654321".toList else none

theorem payees_checked (id : Uuid) (prof : BankProfile)
    (h : (payees id).payoutProfile = some prof) : prof.Checked := by
  unfold payees at h
  split at h
  · cases h
    exact ⟨List.all_eq_true.mp rfl, rfl, by decide⟩
  · cases h

theorem decrypt_accounts : OpensToAccounts decrypt := by
  intro enc tenantId membershipId account h
  unfold decrypt at h
  split at h
  · cases h
    exact ⟨List.all_eq_true.mp rfl, by decide⟩
  · cases h

end Demo

end Refearn.Payouts.Nacha
