import Refearn.Payouts.Proofs.Nacha
import Mathlib.Data.List.Forall2
/-!
# When an ACH file is well formed

A file is well formed where its lines have 94 characters and its columns hold the credits and
their sums. Texts are printed as they are, so a line end in one of them cuts its record in two,
and a control column keeps the last digits of a sum that is too large.
-/

namespace Refearn.Payouts.Nacha

open Support

/-! ## Well-formed files -/

/-- The sums of credits. -/
def exactSums (credits : List BankCredit) : ControlSums where
  entryCount := credits.length
  entryHash := (credits.map fun c => digitsValue (c.routingNumber.take 8)).sum % 10 ^ 10
  debitCents := 0
  creditCents := (credits.map BankCredit.amountCents).sum

/-- A file of lines of 94 characters in blocks of ten, from which these credits are read, with
the trace numbers from one on, and whose controls are their sums. -/
structure WellFormed (text : List Char) (paid : List BankCredit) : Prop where
  lines : ∃ (lines : List (List Char)) (blocks : Nat),
    text = lines.flatMap (fun line => line ++ ['\n']) ∧
      (∀ line ∈ lines, line.length = 94 ∧ '\n' ∉ line) ∧ lines.length = 10 * blocks ∧
      (readFile text).fileControl = some (blocks, exactSums paid)
  batchControl : (readFile text).batchControl = some (exactSums paid)
  credits : (readFile text).credits = paid
  traces : (readFile text).traces = (List.range paid.length).map (· + 1)

section File

variable {toUpperCase : List Char → List Char} {cfg : AchConfig} {now : Instant}
  {entries : List AchEntry}

theorem sum_amountCents (entries : List AchEntry) :
    ((entries.map AchEntry.credit).map BankCredit.amountCents).sum = totalCredit entries := by
  rw [List.map_map]
  rfl

theorem controlSums_of_lt {n : Nat} (hfits : ∀ e ∈ entries, e.Fits)
    (hcount : entries.length < 10 ^ n) (htotal : totalCredit entries < 10 ^ 12) :
    controlSums n entries = exactSums (entries.map AchEntry.credit) := by
  rw [controlSums_eq hfits]
  unfold creditSums exactSums
  rw [sum_amountCents, List.length_map, Nat.mod_eq_of_lt hcount, Nat.mod_eq_of_lt htotal]

theorem lt_of_controlSums {n : Nat}
    (h : controlSums n entries = exactSums (entries.map AchEntry.credit)) :
    entries.length < 10 ^ n ∧ totalCredit entries < 10 ^ 12 := by
  have hcount : entries.length % 10 ^ n = (entries.map AchEntry.credit).length :=
    congrArg ControlSums.entryCount h
  have htotal : totalCredit entries % 10 ^ 12 =
      ((entries.map AchEntry.credit).map BankCredit.amountCents).sum :=
    congrArg ControlSums.creditCents h
  rw [List.length_map] at hcount
  rw [sum_amountCents] at htotal
  exact ⟨hcount ▸ Nat.mod_lt _ (Nat.pow_pos (by decide)),
    htotal ▸ Nat.mod_lt _ (Nat.pow_pos (by decide))⟩

/-- A file is well formed where no printed text has a line end and the sums fit their columns. -/
theorem buildNachaFile_wellFormed_iff (hnow : FourDigitYear now)
    (hfits : ∀ e ∈ entries, e.Fits) :
    WellFormed (buildNachaFile toUpperCase entries cfg now) (entries.map AchEntry.credit) ↔
      (cfg.PrintsOneLine toUpperCase ∧ ∀ e ∈ entries, e.PrintsOneLine toUpperCase) ∧
        entries.length < 10 ^ 6 ∧ totalCredit entries < 10 ^ 12 := by
  constructor
  · intro h
    obtain ⟨lines, blocks, htext, hlines, -, -⟩ := h.lines
    have hsame : nachaLines toUpperCase entries cfg now = lines :=
      lines_unique (buildNachaFile_eq.symm.trans htext)
        (fun line hline => length_of_mem_nachaLines hnow hline) fun line hline =>
        (hlines line hline).1
    have hone : ∀ line ∈ nachaLines toUpperCase entries cfg now, '\n' ∉ line := by
      rw [hsame]
      exact fun line hline => (hlines line hline).2
    have hcontrol := h.batchControl
    rw [readFile_of_lines hone hfits] at hcontrol
    exact ⟨(lines_oneLine_iff now).mp hone, lt_of_controlSums (Option.some.inj hcontrol)⟩
  · rintro ⟨hprints, hcount, htotal⟩
    have hone := (lines_oneLine_iff now).mpr hprints
    have hread := readFile_of_lines hone hfits
    have hsums : controlSums 8 entries = exactSums (entries.map AchEntry.credit) :=
      controlSums_of_lt hfits (by omega) htotal
    constructor
    · refine ⟨_, (entries.length + 13) / 10, buildNachaFile_eq, fun line hline =>
        ⟨length_of_mem_nachaLines hnow hline, hone line hline⟩, length_nachaLines _ _ _ _, ?_⟩
      rw [hread, hsums, Nat.mod_eq_of_lt (by omega)]
    · rw [hread, controlSums_of_lt hfits hcount htotal]
    · rw [hread]
    · rw [hread, List.length_map]
      refine List.map_congr_left fun i hi => Nat.mod_eq_of_lt ?_
      have hi' := List.mem_range.mp hi
      omega

end File

/-! ## The file of the paid payouts -/

/-- No text that is printed of the configuration and of the paid payouts with a bank account has
a line end, and their number and their sum fit the columns of the controls. -/
structure FitsFile (toUpperCase : List Char → List Char) (cfg : AchConfig)
    (paid : List PaidPayout) : Prop where
  companyName : '\n' ∉ (toUpperCase cfg.companyName).take 23
  companyId : '\n' ∉ cfg.companyId.take 10
  legalNames : ∀ p ∈ paid, ∀ prof enc, p.bankAccount = .ok (prof, enc) →
    '\n' ∉ (toUpperCase prof.legalName).take 22
  count : (paid.filter (·.omission.isNone)).length < 10 ^ 6
  cents : ((paid.filter (·.omission.isNone)).map PaidPayout.totalCents).sum < 10 ^ 12

section Paid

variable {decrypt : List Char → Uuid → Uuid → Option (List Char)}
  {toUpperCase : List Char → List Char} {payouts : List PaidPayout} {entries : List AchEntry}
  {skipped : List Skipped}

/-- The loop makes the entries in the order of the payouts that have a bank account. -/
theorem collect_entries (h : collect decrypt payouts = .ok (entries, skipped)) :
    List.Forall₂ (MadeFrom decrypt) (payouts.filter (·.omission.isNone)) entries := by
  induction payouts generalizing entries skipped with
  | nil =>
      cases h
      exact .nil
  | cons p payouts ih =>
      obtain ⟨entries', skipped', hrest, hturn⟩ := collect_cons_of_ok h
      rcases hturn with ⟨reason, hbank, rfl, -⟩ | ⟨e, hfrom, rfl, -⟩
      · have homission : p.omission = some (p.skipped reason) := by
          unfold PaidPayout.omission
          rw [hbank]
        rw [List.filter_cons_of_neg (by rw [homission]; exact Bool.false_ne_true)]
        exact ih hrest
      · rw [List.filter_cons_of_pos (by rw [hfrom.bankCredit.2.2]; rfl)]
        exact .cons hfrom (ih hrest)

theorem sum_totalCents (h : List.Forall₂ (MadeFrom decrypt) payouts entries) :
    (payouts.map PaidPayout.totalCents).sum = totalCredit entries := by
  unfold totalCredit
  induction h with
  | nil => rfl
  | cons hfrom _ ih =>
      rw [List.map_cons, List.map_cons, List.sum_cons, List.sum_cons, ih, hfrom.bankCredit.2.1,
        Int.natCast_add]

theorem MadeFrom.printsOneLine_iff {p : PaidPayout} {e : AchEntry} (h : MadeFrom decrypt p e)
    (haccounts : OpensToAccounts decrypt) :
    e.PrintsOneLine toUpperCase ↔ ∀ prof enc, p.bankAccount = .ok (prof, enc) →
      '\n' ∉ (toUpperCase prof.legalName).take 22 := by
  obtain ⟨prof, enc, hbank, hname⟩ := h.name
  constructor
  · intro hprints prof' enc' hbank'
    cases hbank.symm.trans hbank'
    exact hname ▸ hprints.name
  · intro hlegal
    have haccount : '\n' ∉ e.accountNumber.take 17 := fun hmem =>
      newline_notMem_of_digits (h.accountDigits haccounts) (List.mem_of_mem_take hmem)
    have hid : '\n' ∉ (e.id.filter (· ≠ '-')).take 15 := fun hmem =>
      h.newline_notMem_id (List.mem_filter.mp (List.mem_of_mem_take hmem)).1
    exact ⟨haccount, hid, hname ▸ hlegal prof enc hbank⟩

/-- The texts and the sums of the entries are those of the payouts they were made from. -/
theorem fitsFile_iff (hupper : KeepsLines toUpperCase) (haccounts : OpensToAccounts decrypt)
    (env : AchEnvironment) (tenantName : List Char)
    (h : collect decrypt payouts = .ok (entries, skipped)) :
    (((achConfigFromEnv env tenantName).PrintsOneLine toUpperCase ∧
        ∀ e ∈ entries, e.PrintsOneLine toUpperCase) ∧
      entries.length < 10 ^ 6 ∧ totalCredit entries < 10 ^ 12) ↔
      FitsFile toUpperCase (achConfigFromEnv env tenantName) payouts := by
  have hmade := collect_entries h
  have hlength : (payouts.filter (·.omission.isNone)).length = entries.length := hmade.length_eq
  have hcents := sum_totalCents hmade
  have hdescription : '\n' ∉ (toUpperCase "PAYOUT".toList).take 10 := fun hmem =>
    absurd (hupper _ (List.mem_of_mem_take hmem)) (by decide)
  constructor
  · rintro ⟨⟨hcfg, hentries⟩, hcount, htotal⟩
    refine ⟨hcfg.companyName, hcfg.companyId, fun p hp prof enc hbank => ?_, by omega, ?_⟩
    · have homission : p.omission.isNone := by
        unfold PaidPayout.omission
        rw [hbank]
        rfl
      have hkept : p ∈ payouts.filter (·.omission.isNone) := List.mem_filter.mpr ⟨hp, homission⟩
      obtain ⟨i, hi, hpi⟩ := List.getElem_of_mem hkept
      have hi' : i < entries.length := hlength ▸ hi
      have hfrom : MadeFrom decrypt p entries[i] := hpi ▸ hmade.get hi hi'
      exact (hfrom.printsOneLine_iff haccounts).mp (hentries _ (List.getElem_mem hi')) prof enc
        hbank
    · rw [hcents]
      exact Int.ofNat_lt.mpr htotal
  · intro hfit
    have htotal := hfit.cents
    rw [hcents] at htotal
    refine ⟨⟨⟨hfit.companyName, hfit.companyId, hdescription⟩, fun e he => ?_⟩,
      hlength ▸ hfit.count, Int.ofNat_lt.mp htotal⟩
    obtain ⟨p, hp, hfrom⟩ := (collect_of_ok h).1 e he
    exact (hfrom.printsOneLine_iff haccounts).mpr (hfit.legalNames p hp)

end Paid

/-- For routing and account numbers as the profile form checks them, the file of the paid payouts
is well formed exactly where no printed text has a line end and the sums fit their columns. -/
theorem achFile_wellFormed_iff {decrypt : List Char → Uuid → Uuid → Option (List Char)}
    {toUpperCase : List Char → List Char} {env : AchEnvironment} {tenantName : List Char}
    {payouts : Table Payout} {payees : Uuid → Payee} {tenantId : Uuid} {period : Option String}
    {now : Instant} {r : AchFile} (hnow : FourDigitYear now) (hupper : KeepsLines toUpperCase)
    (hprofiles : ∀ id prof, (payees id).payoutProfile = some prof → prof.RoutingChecked)
    (haccounts : OpensToAccounts decrypt)
    (h : achFile decrypt toUpperCase env tenantName payouts payees tenantId period now = .ok r) :
    WellFormed r.file ((paidPayouts payouts payees tenantId period).filterMap
        (PaidPayout.bankCredit decrypt)) ↔
      FitsFile toUpperCase (achConfigFromEnv env tenantName)
        (paidPayouts payouts payees tenantId period) := by
  unfold achFile at h
  cases hcollect : collect decrypt (paidPayouts payouts payees tenantId period) with
  | error error =>
      rw [hcollect] at h
      cases h
  | ok collected =>
      obtain ⟨entries, skipped⟩ := collected
      rw [hcollect] at h
      cases h
      obtain ⟨hmade, hcredits, -, -⟩ := collect_of_ok hcollect
      have hfits : ∀ e ∈ entries, e.Fits := by
        intro e he
        obtain ⟨p, hp, hfrom⟩ := hmade e he
        obtain ⟨payout, -, rfl⟩ := List.mem_map.mp hp
        exact hfrom.fits haccounts (hprofiles payout.membershipId)
      rw [← hcredits]
      exact (buildNachaFile_wellFormed_iff hnow hfits).trans
        (fitsFile_iff hupper haccounts env tenantName hcollect)

/-- A payout of one dollar to an account with a name in one line. -/
theorem achFile_wellFormed_one :
    ∃ r, achFile Demo.decrypt id ⟨none, none, none, none⟩ "ACME".toList Demo.payouts Demo.payees 1
        none 0 = .ok r ∧
      WellFormed r.file [⟨"021000021".toList, "000987654321".toList, .savings, 100⟩] := by
  obtain ⟨r, hr⟩ : ∃ r, achFile Demo.decrypt id ⟨none, none, none, none⟩ "ACME".toList Demo.payouts
      Demo.payees 1 none 0 = .ok r := ⟨_, rfl⟩
  refine ⟨r, hr, (achFile_wellFormed_iff (by decide) (fun _ h => h) (fun id prof hprof => ?_)
    Demo.decrypt_accounts hr).mpr ⟨by decide, by decide, fun p hp prof enc hbank hmem => ?_,
      by decide, by decide⟩⟩
  · have hchecked := Demo.payees_checked id prof hprof
    exact ⟨hchecked.routingDigits, hchecked.routingLength⟩
  · obtain ⟨payout, -, rfl⟩ := List.mem_map.mp hp
    have hchecked := Demo.payees_checked payout.membershipId prof (bankAccount_profile hbank)
    exact hchecked.legalName (List.mem_of_mem_take hmem)

namespace Demo

/-- The name of the first member has a line end in it. -/
def twoLinePayees (id : Uuid) : Payee where
  fullName := "JO".toList
  payoutProfile :=
    if id = 1 then some ⟨"JANE\nDOE".toList, "021000021".toList, .savings, some "v1".toList⟩
    else none

def twoLineEntry : AchEntry where
  routingNumber := "021000021".toList
  accountNumber := "000987654321".toList
  accountType := .savings
  amountCents := 100
  name := "JANE\nDOE".toList
  id := Uuid.chars 1

theorem collect_twoLine :
    collect decrypt (paidPayouts payouts twoLinePayees 1 none) =
      .ok ([twoLineEntry], [⟨2, "JO".toList, .noPayoutProfile⟩]) := rfl

end Demo

/-- The name cuts the entry in two lines, and its trace number is not found. -/
theorem achFile_cuts_entry :
    ∃ r, achFile Demo.decrypt id ⟨none, none, none, none⟩ "ACME".toList Demo.payouts
        Demo.twoLinePayees 1 none 0 = .ok r ∧
      ¬ WellFormed r.file ((paidPayouts Demo.payouts Demo.twoLinePayees 1 none).filterMap
        (PaidPayout.bankCredit Demo.decrypt)) := by
  refine ⟨⟨buildNachaFile id [Demo.twoLineEntry]
    (achConfigFromEnv ⟨none, none, none, none⟩ "ACME".toList) 0,
    [⟨2, "JO".toList, .noPayoutProfile⟩]⟩, ?_, fun h => ?_⟩
  · unfold achFile
    rw [Demo.collect_twoLine]
    rfl
  · have htraces := h.traces
    rw [buildNachaFile_eq, nachaLines, fillBlock_eq] at htraces
    exact absurd htraces (by decide +kernel)

end Refearn.Payouts.Nacha
