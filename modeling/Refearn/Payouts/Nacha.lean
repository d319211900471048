import Refearn.Schema
import Refearn.Support.FixedWidth
import Refearn.Support.IsoDate
import Mathlib.Data.List.Sort
/-!
# The ACH file of the paid payouts

`nacha.ts` and `achFile` of `payouts.service.ts`. A file is a list of records of 94 characters:
two headers, an entry for every payout with a bank account, two controls, and nines up to a
multiple of ten records. A character stands for one UTF-16 unit, and `toUpperCase` and the
decryption of an account number are parameters.
-/

namespace Refearn.Payouts.Nacha

open Support Support.IsoDate

inductive AccountType | checking | savings
  deriving DecidableEq

structure AchEntry where
  routingNumber : List Char
  accountNumber : List Char
  accountType : AccountType
  amountCents : Nat
  name : List Char
  id : List Char
  deriving DecidableEq

structure AchConfig where
  odfiRouting : List Char
  companyName : List Char
  companyId : List Char
  destRouting : List Char
  entryDescription : Option (List Char)
  deriving DecidableEq

/-! ## Columns -/

/-- `String(n)` -/
def decimal (n : Nat) : List Char := Nat.toDigits 10 n

/-- Text on the left of its column. -/
def pr (s : List Char) (n : Nat) : List Char := leftJustified ' ' n s

/-- The digits of a text on the right of its column. -/
def pn (v : List Char) (n : Nat) : List Char := rightJustified '0' n (v.filter Char.isDigit)

/-- `String(d.getUTCFullYear()).slice(2)` -/
def shortYear (now : Instant) : List Char :=
  let year := monthOf (now / DAY_MILLIS) / 12
  ((if year < 0 then ['-'] else []) ++ decimal year.natAbs).drop 2

def yymmdd (now : Instant) : List Char :=
  let day := now / DAY_MILLIS
  shortYear now ++ (pn (decimal (monthOf day % 12 + 1).toNat) 2 ++ pn (decimal (dayOfMonth day)) 2)

def hhmm (now : Instant) : List Char :=
  pn (decimal (timeOfDay now / 3600000)) 2 ++ pn (decimal (timeOfDay now / 60000 % 60)) 2

def odfi8 (cfg : AchConfig) : List Char := (pn cfg.odfiRouting 9).take 8

/-! ## Records -/

section Records

variable (toUpperCase : List Char → List Char)

/-- 1: File Header -/
def fileHeader (cfg : AchConfig) (now : Instant) : List (List Char) :=
  ["1".toList, "01".toList, " ".toList, pn cfg.destRouting 9, pn cfg.odfiRouting 10, yymmdd now,
    hhmm now, "A".toList, "094".toList, "10".toList, "1".toList, pr [] 23,
    pr (toUpperCase cfg.companyName) 23, pr [] 8]

/-- 5: Batch Header -/
def batchHeader (cfg : AchConfig) (now : Instant) : List (List Char) :=
  ["5".toList, "220".toList, pr (toUpperCase cfg.companyName) 16, pr [] 20, pr cfg.companyId 10,
    "PPD".toList, pr (toUpperCase (cfg.entryDescription.getD "PAYOUT".toList)) 10, yymmdd now,
    yymmdd now, "   ".toList, "1".toList, odfi8 cfg, pn (decimal 1) 7]

def txCode : AccountType → List Char
  | .savings => "32".toList
  | .checking => "22".toList

def recv8 (e : AchEntry) : List Char := (pn e.routingNumber 9).take 8

def checkDigit (e : AchEntry) : List Char := (pn e.routingNumber 9).drop 8

/-- 6: Entry Detail -/
def entryDetail (cfg : AchConfig) (e : AchEntry) (i : Nat) : List (List Char) :=
  ["6".toList, txCode e.accountType, recv8 e, checkDigit e, pr e.accountNumber 17,
    pn (decimal e.amountCents) 10, pr ((e.id.filter (· ≠ '-')).take 15) 15,
    pr (toUpperCase e.name) 22, "  ".toList, "0".toList, odfi8 cfg, pn (decimal (i + 1)) 7]

/-- `hash % 10_000_000_000` -/
def hashStr (entries : List AchEntry) : List Char :=
  pn (decimal ((entries.map fun e => digitsValue (recv8 e)).sum % 10000000000)) 10

def totalCredit (entries : List AchEntry) : Nat := (entries.map AchEntry.amountCents).sum

/-- 8: Batch Control -/
def batchControl (cfg : AchConfig) (entries : List AchEntry) : List (List Char) :=
  ["8".toList, "220".toList, pn (decimal entries.length) 6, hashStr entries, pn (decimal 0) 12,
    pn (decimal (totalCredit entries)) 12, pr cfg.companyId 10, pr [] 19, pr [] 6, odfi8 cfg,
    pn (decimal 1) 7]

/-- 9: File Control -/
def fileControl (blockCount : Nat) (entries : List AchEntry) : List (List Char) :=
  ["9".toList, pn (decimal 1) 6, pn (decimal blockCount) 6, pn (decimal entries.length) 8,
    hashStr entries, pn (decimal 0) 12, pn (decimal (totalCredit entries)) 12, pr [] 39]

/-- A record of nines. -/
def filler : List Char := List.replicate 94 '9'

/-- `while (lines.length % 10 !== 0)` -/
def fillBlock (lines : List (List Char)) : List (List Char) :=
  if lines.length % 10 = 0 then lines else fillBlock (lines ++ [filler])
termination_by (10 - lines.length % 10) % 10
decreasing_by
  rw [List.length_append, List.length_singleton]
  omega

/-- The records before the file control. -/
def batchLines (cfg : AchConfig) (now : Instant) (entries : List AchEntry) : List (List Char) :=
  (fileHeader toUpperCase cfg now).flatten :: (batchHeader toUpperCase cfg now).flatten ::
    (entries.mapIdx (fun i e => (entryDetail toUpperCase cfg e i).flatten) ++
      [(batchControl cfg entries).flatten])

/-- `Math.ceil((lines.length + 1) / 10)` -/
def blockCount (lines : List (List Char)) : Nat := (lines.length + 10) / 10

def nachaLines (entries : List AchEntry) (cfg : AchConfig) (now : Instant) : List (List Char) :=
  let lines := batchLines toUpperCase cfg now entries
  fillBlock (lines ++ [(fileControl (blockCount lines) entries).flatten])

def buildNachaFile (entries : List AchEntry) (cfg : AchConfig) (now : Instant) : List Char :=
  ['\n'].intercalate (nachaLines toUpperCase entries cfg now) ++ ['\n']

end Records

/-! ## Configuration -/

/-- The environment variables `REFEARN_ACH_…`. -/
structure AchEnvironment where
  odfiRouting : Option (List Char)
  destRouting : Option (List Char)
  companyId : Option (List Char)
  companyName : Option (List Char)

def achConfigFromEnv (env : AchEnvironment) (companyNameFallback : List Char) : AchConfig where
  odfiRouting := env.odfiRouting.getD "000000000".toList
  destRouting := (env.destRouting.or env.odfiRouting).getD "000000000".toList
  companyId := env.companyId.getD "0000000000".toList
  companyName := env.companyName.getD companyNameFallback
  entryDescription := some "PAYOUT".toList

/-! ## The paid payouts -/

/-- The bank columns of a payout profile. -/
structure BankProfile where
  legalName : List Char
  routingNumber : List Char
  accountType : AccountType
  accountEnc : Option (List Char)

/-- What `achFile` reads of a membership. -/
structure Payee where
  fullName : List Char
  payoutProfile : Option BankProfile

/-- A payout joined with its membership. -/
structure PaidPayout where
  id : Uuid
  tenantId : Uuid
  membershipId : Uuid
  totalCents : Int
  fullName : List Char
  payoutProfile : Option BankProfile

inductive SkipReason | noPayoutProfile | noBankAccount
  deriving DecidableEq

structure Skipped where
  membershipId : Uuid
  name : List Char
  reason : SkipReason
  deriving DecidableEq

inductive AchError
  | badRequest (message : String)
  | decryption
  deriving DecidableEq

/-- `status = 'paid'` of the tenant, in the period if one is given. -/
def isPaidIn (tenantId : Uuid) (period : Option String) (p : Payout) : Bool :=
  p.tenantId = tenantId && p.status = .paid && period.all (p.period = ·)

/-- `ORDER BY paid_at ASC`, in which a missing date comes last. -/
def paidBefore (p p' : Payout) : Prop := ∀ t' ∈ p'.paidAt, ∃ t ∈ p.paidAt, t ≤ t'

instance instDecidableRelPaidBefore : DecidableRel paidBefore := fun p p' =>
  inferInstanceAs (Decidable (∀ t' ∈ p'.paidAt, ∃ t ∈ p.paidAt, t ≤ t'))

def joinPayee (payees : Uuid → Payee) (p : Payout) : PaidPayout where
  id := p.id
  tenantId := p.tenantId
  membershipId := p.membershipId
  totalCents := p.totalCents
  fullName := (payees p.membershipId).fullName
  payoutProfile := (payees p.membershipId).payoutProfile

def paidPayouts (payouts : Table Payout) (payees : Uuid → Payee) (tenantId : Uuid)
    (period : Option String) : List PaidPayout :=
  ((payouts.rows.filter (isPaidIn tenantId period)).insertionSort paidBefore).map
    (joinPayee payees)

def outsideNachaLimit (p : PaidPayout) : AchError :=
  .badRequest ("payout " ++ p.id.text ++ " tutari NACHA entry siniri disinda " ++
    "($99,999,999.99) — ACH dosyasi olusturulamaz")

section AchFile

variable (decrypt : List Char → Uuid → Uuid → Option (List Char))

/-- The profile and the encrypted account of a payout that can go into the file. An empty text
is no account. -/
def PaidPayout.bankAccount (p : PaidPayout) : Except SkipReason (BankProfile × List Char) :=
  match p.payoutProfile with
  | none => .error .noPayoutProfile
  | some prof =>
      match prof.accountEnc with
      | none | some [] => .error .noBankAccount
      | some enc => .ok (prof, enc)

def PaidPayout.skipped (p : PaidPayout) (reason : SkipReason) : Skipped where
  membershipId := p.membershipId
  name := (p.payoutProfile.map BankProfile.legalName).getD p.fullName
  reason := reason

/-- The entry of a payout with a bank account. -/
def PaidPayout.entry (p : PaidPayout) (prof : BankProfile) (enc : List Char) :
    Except AchError AchEntry :=
  if p.totalCents < 0 ∨ 9999999999 < p.totalCents then .error (outsideNachaLimit p)
  else
    match decrypt enc p.tenantId p.membershipId with
    | none => .error .decryption
    | some account =>
        .ok
          { routingNumber := prof.routingNumber, accountNumber := account
            accountType := prof.accountType, amountCents := p.totalCents.toNat
            name := prof.legalName, id := p.membershipId.chars }

/-- The loop over the payouts. -/
def collect : List PaidPayout → Except AchError (List AchEntry × List Skipped)
  | [] => .ok ([], [])
  | p :: payouts =>
      match p.bankAccount with
      | .error reason => do
          let (entries, skipped) ← collect payouts
          pure (entries, p.skipped reason :: skipped)
      | .ok (prof, enc) => do
          let entry ← p.entry decrypt prof enc
          let (entries, skipped) ← collect payouts
          pure (entry :: entries, skipped)

structure AchFile where
  file : List Char
  skipped : List Skipped

def achFile (toUpperCase : List Char → List Char) (env : AchEnvironment)
    (tenantName : List Char) (payouts : Table Payout) (payees : Uuid → Payee) (tenantId : Uuid)
    (period : Option String) (now : Instant) : Except AchError AchFile := do
  let (entries, skipped) ← collect decrypt (paidPayouts payouts payees tenantId period)
  pure ⟨buildNachaFile toUpperCase entries (achConfigFromEnv env tenantName) now, skipped⟩

end AchFile

end Refearn.Payouts.Nacha
