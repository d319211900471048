import Refearn.Support.JsText
import Refearn.Support.LineEndings
/-!
# CSV of sales

The reader of imported files and the writer of exported cells. The reader is a loop over
the characters with the field and the row it is in; a quote inside quotes looks at the
character after it.
-/

namespace Refearn.Sales

open Support

abbrev Chars := List Char

/-! ## Reading -/

structure CsvReader where
  field : Chars
  row : List Chars
  rows : List (List Chars)
  inQuotes : Bool

namespace CsvReader

def start : CsvReader := ⟨[], [], [], false⟩

def push (r : CsvReader) (c : Char) : CsvReader := { r with field := r.field ++ [c] }

def endField (r : CsvReader) : CsvReader := { r with row := r.row ++ [r.field], field := [] }

def endRow (r : CsvReader) : CsvReader :=
  { r with rows := r.rows ++ [r.row ++ [r.field]], row := [], field := [] }

def setQuotes (r : CsvReader) (inQuotes : Bool) : CsvReader := { r with inQuotes := inQuotes }

def readChars (r : CsvReader) : Chars → CsvReader
  | [] => r
  | c :: cs =>
      if r.inQuotes then
        if c = '"' then
          match cs with
          | [] => r.setQuotes false
          | d :: rest =>
              if d = '"' then readChars (r.push '"') rest
              else readChars (r.setQuotes false) (d :: rest)
        else readChars (r.push c) cs
      else if c = '"' then readChars (r.setQuotes true) cs
      else if c = ',' then readChars r.endField cs
      else if c = '\n' then readChars r.endRow cs
      else readChars (r.push c) cs

/-- A last row without a newline counts unless nothing of it was read. -/
def finish (r : CsvReader) : List (List Chars) :=
  if r.field ≠ [] ∨ 0 < r.row.length then r.rows ++ [r.row ++ [r.field]] else r.rows

end CsvReader

/-- Some cell of the row has more than blanks. -/
def notBlank (row : List Chars) : Bool := row.any fun cell => trimChars cell ≠ []

def parseChars (text : Chars) : List (List Chars) :=
  (CsvReader.start.readChars (normalizeLines text)).finish.filter notBlank

def parseCsv (text : String) : List (List String) :=
  (parseChars text.toList).map fun row => row.map String.ofList

/-! ## Writing -/

/-- `/^[\u0000-\u0020]*[=+\-@]/`. -/
def formulaLead (cs : Chars) : Bool :=
  match cs.dropWhile (·.toNat ≤ 0x20) with
  | c :: _ => ['=', '+', '-', '@'].contains c
  | [] => false

def guardFormula (cs : Chars) : Chars := if formulaLead cs then '\'' :: cs else cs

/-- `replace(/"/g, '""')`. -/
def doubleQuotes (cs : Chars) : Chars := cs.flatMap fun c => if c = '"' then ['"', '"'] else [c]

def csvCellChars (cs : Chars) : Chars :=
  let text := guardFormula cs
  if text.any fun c => ['"', ',', '\n', '\r'].contains c then
    '"' :: (doubleQuotes text ++ ['"'])
  else text

/-- `null` is written as the empty text. -/
def csvCell (value : Option String) : String :=
  String.ofList (csvCellChars (value.getD "").toList)

/-- Cells with commas between them, rows with newlines. -/
def writeCsv (table : List (List String)) : String :=
  "\n".intercalate (table.map fun row => ",".intercalate (row.map fun cell => csvCell (some cell)))

/-! ## The rows of a text

What the rows of a text are, without a reader: the text is cut at the newlines with an
even number of quotes before them, each line at such commas. -/

/-- Cut at `x` outside quotes. -/
def splitOutside (x : Char) : Bool → Chars → List Chars
  | _, [] => [[]]
  | inQuotes, c :: cs =>
      if c = x ∧ inQuotes = false then [] :: splitOutside x false cs
      else (splitOutside x (if c = '"' then !inQuotes else inQuotes) cs).modifyHead (c :: ·)

/-- A cell without its quotes; a pair of quotes inside quotes is one. -/
def unquote (inQuotes : Bool) : Chars → Chars
  | [] => []
  | c :: cs =>
      if c = '"' then
        match cs with
        | [] => []
        | d :: rest =>
            if inQuotes ∧ d = '"' then '"' :: unquote true rest
            else unquote (!inQuotes) (d :: rest)
      else c :: unquote inQuotes cs

def rowsOf (text : Chars) : List (List Chars) :=
  (splitOutside '\n' false (normalizeLines text)).map fun line =>
    (splitOutside ',' false line).map (unquote false)

end Refearn.Sales
