import Refearn.Support.Json
import Mathlib.Tactic
/-!
# Amounts in words

The phrase a check carries beside its figures, and the reading of such a phrase by the
grammar of English numbers. The reader has a vocabulary of its own and knows nothing of
how the phrase was put together.
-/

namespace Refearn.Checks

open Support

/-- The limit of a check, the one of a NACHA entry. -/
def CHECK_AMOUNT_MAX : Int := 9999999999

/-! ## Writing -/

def ONES : List (List Char) :=
  ["", "One", "Two", "Three", "Four", "Five", "Six", "Seven", "Eight", "Nine", "Ten",
    "Eleven", "Twelve", "Thirteen", "Fourteen", "Fifteen", "Sixteen", "Seventeen",
    "Eighteen", "Nineteen"].map String.toList

def TENS : List (List Char) :=
  ["", "", "Twenty", "Thirty", "Forty", "Fifty", "Sixty", "Seventy", "Eighty",
    "Ninety"].map String.toList

def groups : List (List Char) := ["", "Thousand", "Million", "Billion"].map String.toList

/-- What a template shows of an entry: a missing one is shown as `undefined`. -/
def entry (table : List (List Char)) (i : Nat) : List Char :=
  table.getD i "undefined".toList

def threeDigits (n : Nat) : List Char :=
  let s := if 100 ≤ n then
      entry ONES (n / 100) ++ " Hundred".toList ++ (if n % 100 ≠ 0 then [' '] else [])
    else []
  let n := if 100 ≤ n then n % 100 else n
  if 20 ≤ n then
    s ++ entry TENS (n / 10) ++ (if n % 10 ≠ 0 then '-' :: entry ONES (n % 10) else [])
  else if 0 < n then s ++ entry ONES n
  else s

/-- The loop over the groups of three digits, the lowest first. -/
def groupsToWords (g n : Nat) (out : List Char) : List Char :=
  if n = 0 then out
  else
    let chunk := n % 1000
    -- a missing group name counts like the empty one
    let name := groups.getD g []
    let out' := if chunk ≠ 0 then
        threeDigits chunk ++ (if name ≠ [] then ' ' :: name else []) ++
          (if out ≠ [] then ' ' :: out else [])
      else out
    groupsToWords (g + 1) (n / 1000) out'
termination_by n

/-- Below zero the loop is not entered. -/
def intToWords (n : Int) : List Char :=
  if n = 0 then "Zero".toList else groupsToWords 0 n.toNat []

def centsToWords (cents : Int) : List Char :=
  let dollars := cents.tdiv 100
  let c := cents.tmod 100
  intToWords dollars ++ " and ".toList ++ (Json.decimal c).leftpad 2 '0' ++ "/100".toList

/-! ## Reading -/

abbrev Word := List Char

/-- The numbers with a word of their own. -/
def smallNumbers : List (Word × Nat) :=
  [("One".toList, 1), ("Two".toList, 2), ("Three".toList, 3), ("Four".toList, 4),
    ("Five".toList, 5), ("Six".toList, 6), ("Seven".toList, 7), ("Eight".toList, 8),
    ("Nine".toList, 9), ("Ten".toList, 10), ("Eleven".toList, 11), ("Twelve".toList, 12),
    ("Thirteen".toList, 13), ("Fourteen".toList, 14), ("Fifteen".toList, 15),
    ("Sixteen".toList, 16), ("Seventeen".toList, 17), ("Eighteen".toList, 18),
    ("Nineteen".toList, 19)]

def tensNumbers : List (Word × Nat) :=
  [("Twenty".toList, 20), ("Thirty".toList, 30), ("Forty".toList, 40), ("Fifty".toList, 50),
    ("Sixty".toList, 60), ("Seventy".toList, 70), ("Eighty".toList, 80),
    ("Ninety".toList, 90)]

def HUNDRED : Word := "Hundred".toList
def AND : Word := "and".toList
def ZERO : Word := "Zero".toList

/-- The groups of a number, the greatest first. -/
def scales : List (Word × Nat) :=
  [("Billion".toList, 10 ^ 9), ("Million".toList, 10 ^ 6), ("Thousand".toList, 10 ^ 3)]

/-- The words `One` to `Nine`. -/
def readDigit (w : Word) : Option Nat :=
  (smallNumbers.lookup w).filter (· < 10)

/-- A number below a hundred in one word; a hyphen joins tens and ones. -/
def readTens (w : Word) : Option Nat :=
  match w.splitOn '-' with
  | [a] => smallNumbers.lookup a <|> tensNumbers.lookup a
  | [a, b] => do
      let tens ← tensNumbers.lookup a
      let ones ← readDigit b
      return tens + ones
  | _ => none

/-- The words of one group of three digits, never those of an empty group. -/
def readGroup : List Word → Option Nat
  | [w] => readTens w
  | [d, h] => if h = HUNDRED then (readDigit d).map (100 * ·) else none
  | [d, h, w] =>
      if h = HUNDRED then do
        let hundreds ← readDigit d
        let rest ← readTens w
        return 100 * hundreds + rest
      else none
  | _ => none

/-- Groups in falling order. What stands before the name of a group is its count; a group
may be missing. -/
def readGroups : List (Word × Nat) → List Word → Option Nat
  | [], ws => if ws = [] then some 0 else readGroup ws
  | (name, value) :: smaller, ws =>
      match ws.splitOn name with
      | [rest] => readGroups smaller rest
      | [count, rest] => do
          let k ← readGroup count
          let n ← readGroups smaller rest
          return k * value + n
      | _ => none

def readDollars (ws : List Word) : Option Nat :=
  if ws = [] then none else if ws = [ZERO] then some 0 else readGroups scales ws

/-- Two digits over a hundred. -/
def readHundredths : Word → Option Nat
  | [a, b, '/', '1', '0', '0'] =>
      if a.isDigit ∧ b.isDigit then some (10 * (a.toNat - 48) + (b.toNat - 48)) else none
  | _ => none

/-- Dollars, `and`, hundredths of a dollar; one blank between two words. -/
def readCents (phrase : List Char) : Option Nat :=
  match (phrase.splitOn ' ').reverse with
  | hundredths :: conjunction :: dollars =>
      if conjunction = AND then do
        let d ← readDollars dollars.reverse
        let c ← readHundredths hundredths
        return 100 * d + c
      else none
  | _ => none

/-! ## Form -/

/-- No blank at either end and no two in a row. -/
structure NoStrayBlank (phrase : List Char) : Prop where
  head : phrase.head? ≠ some ' '
  last : phrase.getLast? ≠ some ' '
  doubled : ¬ [' ', ' '] <:+: phrase

/-- The name of a group stands after a word of its count: neither at the start nor after
another such name. -/
structure NoEmptyGroup (ws : List Word) : Prop where
  head : ∀ w ∈ ws.head?, w ∉ groups
  next : ws.IsChain fun a b => b ∈ groups → a ∉ groups

end Refearn.Checks
