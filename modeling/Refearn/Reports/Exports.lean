import Refearn.Auth.Schema
import Refearn.Engine.Commissions
import Refearn.Sales.Csv
import Refearn.Support.IsoDate
/-!
# CSV exports

The files a tenant downloads. Texts that come from people go through a `csvCell`; there
are two of them, one beside the sales and one that all modules share, and each export
imports one. How a floating amount is shown is a parameter, it is a number of the program's
own.
-/

namespace Refearn.Reports

open Support
open Refearn.Sales (Chars doubleQuotes unquote formulaLead)

/-! ## The shared cell -/

/-- `/^[=+\-@\t\r]/`. -/
def dangerousLead (cs : Chars) : Bool :=
  match cs with
  | c :: _ => ['=', '+', '-', '@', '\t', '\r'].contains c
  | [] => false

def guardLead (cs : Chars) : Chars := if dangerousLead cs then '\'' :: cs else cs

/-- `csvCell` of `common/csv.ts`. -/
def commonCellChars (cs : Chars) : Chars :=
  let v := guardLead cs
  if v.any fun c => ['"', ',', '\r', '\n'].contains c then
    '"' :: (doubleQuotes v ++ ['"'])
  else v

def commonCell (value : Option String) : String :=
  String.ofList (commonCellChars (value.getD "").toList)

/-! ## Exports -/

/-- An entry of a line: a value put through the cell, or a text of the program's own. -/
inductive Field
  | cell (value : Option String)
  | text (s : String)

structure CsvExport where
  csvCell : Option String → String
  header : String
  rows : List (List Field)

namespace CsvExport

def fieldText (e : CsvExport) : Field → String
  | .cell value => e.csvCell value
  | .text s => s

/-- The file. -/
def text (e : CsvExport) : String :=
  "\n".intercalate (e.header :: e.rows.map fun row => ",".intercalate (row.map e.fieldText)) ++
    "\n"

/-- The values people chose. -/
def values (e : CsvExport) : List (Option String) :=
  e.rows.flatMap fun row => row.filterMap fun
    | .cell value => some value
    | .text _ => none

/-- A spreadsheet that drops leading blanks and control characters sees no formula. -/
def Guarded (e : CsvExport) : Prop :=
  ∀ value ∈ e.values, formulaLead (unquote false (e.csvCell value).toList) = false

end CsvExport

structure SaleRow where
  id : Uuid
  saleDate : Instant
  sellerCode : String
  sellerName : String
  amountCents : Int
  currency : String
  status : SaleStatus
  customerRef : Option String
  externalRef : Option String
  approvedAt : Option Instant
  deliveredAt : Option Instant

structure MemberRow where
  referralCode : String
  fullName : String
  email : String
  role : Auth.Role
  status : MembershipStatus
  depth : Nat
  sponsorCode : Option String
  joinedAt : Instant
  emailVerifiedAt : Option Instant

structure PayoutRow where
  id : Uuid
  batchId : Option Uuid
  period : String
  referralCode : String
  fullName : String
  email : String
  totalCents : Int
  settlementReference : Option String
  paidAt : Option Instant

structure TaxRow where
  legalName : Option String
  name : String
  referralCode : String
  taxIdType : Option String
  taxIdLast4 : Option String
  paidCents : Int
  reportable : Bool

structure AuditLine where
  createdAt : Instant
  action : String
  entity : String
  entityId : Option String
  actorName : String
  actorEmail : Option String
  ip : Option String

def isoText (t : Instant) : String := String.ofList (IsoDate.toISOString t)

def decimalText (n : Int) : String := String.ofList (Json.decimal n)

def roleText : Auth.Role → String
  | .platformAdmin => "platform_admin"
  | .tenantOwner => "tenant_owner"
  | .tenantAdmin => "tenant_admin"
  | .tenantStaff => "tenant_staff"
  | .member => "member"

def memberStatusText : MembershipStatus → String
  | .active => "active"
  | .inactive => "inactive"

def centsToDecimalString (cents : Int) : String :=
  (if cents < 0 then "-" else "") ++ String.ofList (Json.decimal (cents.natAbs / 100)) ++ "." ++
    String.ofList (padded 2 (cents.natAbs % 100))

/-- `SalesService.exportCsv`; `fixed` shows cents as an amount with two decimals. -/
def salesExport (fixed : Int → String) (rows : List SaleRow) : CsvExport where
  csvCell := commonCell
  header := "id,sale_date,seller_code,seller_name,amount_cents,amount,currency,status," ++
    "customer_ref,external_ref,approved_at,delivered_at"
  rows := rows.map fun s =>
    [.text s.id.text, .text (isoText s.saleDate), .cell s.sellerCode, .cell s.sellerName,
      .text (decimalText s.amountCents), .text (fixed s.amountCents), .text s.currency,
      .text (Engine.SaleStatus.text s.status), .cell (s.customerRef.getD ""),
      .cell (s.externalRef.getD ""), .text ((s.approvedAt.map isoText).getD ""),
      .text ((s.deliveredAt.map isoText).getD "")]

/-- `MembersAdminService.exportCsv`. -/
def membersExport (rows : List MemberRow) : CsvExport where
  csvCell := commonCell
  header := "referral_code,full_name,email,role,status,depth,sponsor_code,joined_at," ++
    "email_verified"
  rows := rows.map fun m =>
    [.cell m.referralCode, .cell m.fullName, .cell m.email, .text (roleText m.role),
      .text (memberStatusText m.status), .text (decimalText m.depth),
      .cell (m.sponsorCode.getD ""), .text (isoText m.joinedAt),
      .text (if m.emailVerifiedAt.isSome then "true" else "false")]

/-- `PayoutsService.exportCsv`. -/
def payoutsExport (rows : List PayoutRow) : CsvExport where
  csvCell := Sales.csvCell
  header := "payout_id,batch_id,period,referral_code,full_name,email,amount_cents," ++
    "settlement_reference,paid_at"
  rows := rows.map fun p =>
    [.cell p.id.text, .cell (p.batchId.map Uuid.text), .cell p.period, .cell p.referralCode,
      .cell p.fullName, .cell p.email, .cell (decimalText p.totalCents),
      .cell p.settlementReference, .cell ((p.paidAt.map isoText).getD "")]

/-- The file of one settlement batch. -/
def batchExport (batchId : Uuid) (period : String) (rows : List PayoutRow) : CsvExport where
  csvCell := Sales.csvCell
  header := "batch_id,payout_id,period,referral_code,full_name,email,amount_cents"
  rows := rows.map fun p =>
    [.cell batchId.text, .cell p.id.text, .cell period, .cell p.referralCode, .cell p.fullName,
      .cell p.email, .cell (decimalText p.totalCents)]

/-- `ReportsService.tax1099Csv`. -/
def tax1099Export (rows : List TaxRow) : CsvExport where
  csvCell := commonCell
  header := "legal_name,full_name,referral_code,tax_id_type,tax_id_last4,paid_amount," ++
    "reportable"
  rows := rows.map fun m =>
    [.cell (m.legalName.getD ""), .cell m.name, .cell m.referralCode,
      .cell (m.taxIdType.getD ""), .cell (m.taxIdLast4.getD ""),
      .text (centsToDecimalString m.paidCents), .text (if m.reportable then "yes" else "no")]

/-- `ReportsService.auditExportCsv`. -/
def auditExport (rows : List AuditLine) : CsvExport where
  csvCell := commonCell
  header := "created_at,action,entity,entity_id,actor_name,actor_email,ip"
  rows := rows.map fun a =>
    [.text (isoText a.createdAt), .cell a.action, .cell a.entity, .cell (a.entityId.getD ""),
      .cell a.actorName, .cell (a.actorEmail.getD ""), .cell (a.ip.getD "")]

/-- The exports and what each one reads. -/
inductive Export
  | sales (rows : List SaleRow)
  | members (rows : List MemberRow)
  | payouts (rows : List PayoutRow)
  | batch (batchId : Uuid) (period : String) (rows : List PayoutRow)
  | tax1099 (rows : List TaxRow)
  | audit (rows : List AuditLine)

def Export.csv (fixed : Int → String) : Export → CsvExport
  | .sales rows => salesExport fixed rows
  | .members rows => membersExport rows
  | .payouts rows => payoutsExport rows
  | .batch batchId period rows => batchExport batchId period rows
  | .tax1099 rows => tax1099Export rows
  | .audit rows => auditExport rows

end Refearn.Reports
