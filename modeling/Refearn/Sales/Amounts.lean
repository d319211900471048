import Refearn.Payouts.Readiness
import Refearn.Support.DigitText
/-!
# Amounts in imported files

An import reads the amount of a sale either as dollars, with dollar signs, commas and blanks
anywhere, or as a whole number of cents.
-/

namespace Refearn.Sales

open Support
open Payouts (MAX_SAFE_INTEGER)

/-- `String(Number.MAX_SAFE_INTEGER)`. -/
def MAX_SAFE_CENTS_TEXT : List Char := Json.decimal MAX_SAFE_INTEGER

def parsePositiveSafeCents (value : List Char) (error : String) : Except String Int :=
  if value.isEmpty || !value.all Char.isDigit then .error error
  else
    let stripped := value.dropWhile (· = '0')
    let normalized := if stripped.isEmpty then ['0'] else stripped
    if normalized = ['0'] ∨ MAX_SAFE_CENTS_TEXT.length < normalized.length ∨
        (normalized.length = MAX_SAFE_CENTS_TEXT.length ∧ MAX_SAFE_CENTS_TEXT < normalized) then
      .error error
    else .ok (digitsValue normalized)

/-- `[$,\s]`. -/
def isSeparator (c : Char) : Bool := c = '$' || c = ',' || isSpace c

/-- `^\d+(\.\d{1,2})?$`. -/
def isDollarAmount (cs : List Char) : Bool :=
  !(cs.takeWhile Char.isDigit).isEmpty &&
    match cs.dropWhile Char.isDigit with
    | [] => true
    | '.' :: cents => (cents.length = 1 || cents.length = 2) && cents.all Char.isDigit
    | _ => false

def parseMoneyAmountToCents (raw : Option String) (assumeCents : Bool) : Except String Int :=
  let value := trim (raw.getD "")
  if value = "" then .error "amount is blank"
  else if assumeCents then
    parsePositiveSafeCents value.toList ("invalid amount_cents: " ++ value)
  else
    let normalized := value.toList.filter fun c => !isSeparator c
    if isDollarAmount normalized then
      let parts := normalized.splitOn '.'
      let dollars := parts.headD []
      let cents := parts.getD 1 []
      parsePositiveSafeCents (dollars ++ cents.rightpad 2 '0') ("invalid amount: " ++ value)
    else .error ("invalid amount: " ++ value)

end Refearn.Sales
