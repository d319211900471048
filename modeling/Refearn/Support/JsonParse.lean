import Refearn.Support.JsonText
import Mathlib.Data.List.TakeDrop
import Mathlib.Tactic.IntervalCases
import Mathlib.Tactic.Ring
/-!
# Reading JSON texts

`JSON.parse`, and that it reads back what `JSON.stringify` writes. An object keeps all its
members, as the text lists them; of two members of one name the last one counts. A half of a
surrogate pair that stands alone is read as U+FFFD.
-/

namespace Refearn.Support

/-- A number is `mantissa * 10 ^ exponent`. -/
inductive JsonValue where
  | null
  | bool (b : Bool)
  | num (mantissa exponent : Int)
  | str (s : String)
  | arr (elements : List JsonValue)
  | obj (members : List (String × JsonValue))

namespace JsonValue

/-- The member of a name. -/
def member (members : List (String × JsonValue)) (name : String) : Option JsonValue :=
  (members.reverse.find? fun m => m.1 = name).map Prod.snd

/-- `Object.keys`. -/
def keys (members : List (String × JsonValue)) : List String :=
  (members.map Prod.fst).eraseDups

/-- The number is the double 1: it is as close to 1 as to any other double. -/
def isOne : JsonValue → Bool
  | .num mantissa exponent =>
      let x : Rat := mantissa * (10 : Rat) ^ exponent
      1 - 1 / 2 ^ 54 ≤ x && x ≤ 1 + 1 / 2 ^ 53
  | .null | .bool _ | .str _ | .arr _ | .obj _ => false

mutual

/-- The value that a written one is read as. -/
def ofJson : Json → JsonValue
  | .null => .null
  | .bool b => .bool b
  | .num n => .num n 0
  | .str s => .str s
  | .arr xs => .arr (ofElements xs)
  | .obj ms => .obj (ofMembers ms)

def ofElements : List Json → List JsonValue
  | [] => []
  | x :: xs => ofJson x :: ofElements xs

def ofMembers : List (String × Json) → List (String × JsonValue)
  | [] => []
  | (k, v) :: ms => (k, ofJson v) :: ofMembers ms

end

/-! ## Strings -/

def isSpace (c : Char) : Bool := c = ' ' || c = '\t' || c = '\n' || c = '\r'

def skipSpace (cs : List Char) : List Char := cs.dropWhile isSpace

def hexDigitOf (c : Char) : Option Nat :=
  if c.isDigit then some (c.toNat - 48)
  else if 'a' ≤ c ∧ c ≤ 'f' then some (c.toNat - 87)
  else if 'A' ≤ c ∧ c ≤ 'F' then some (c.toNat - 55)
  else none

/-- A character, or a code unit that is written as four digits. -/
inductive Item
  | char (c : Char)
  | unit (n : Nat)
  deriving DecidableEq

def readUnit (a b c d : Char) : Option Item := do
  let w ← hexDigitOf a
  let x ← hexDigitOf b
  let y ← hexDigitOf c
  let z ← hexDigitOf d
  pure (.unit (((w * 16 + x) * 16 + y) * 16 + z))

/-- Read one character of a string; its end is none. -/
def readItem : List Char → Option (Item × List Char)
  | '\\' :: 'u' :: a :: b :: c :: d :: rest => (readUnit a b c d).map fun item => (item, rest)
  | '\\' :: '"' :: rest => some (.char '"', rest)
  | '\\' :: '\\' :: rest => some (.char '\\', rest)
  | '\\' :: '/' :: rest => some (.char '/', rest)
  | '\\' :: 'b' :: rest => some (.char (Char.ofNat 8), rest)
  | '\\' :: 'f' :: rest => some (.char (Char.ofNat 12), rest)
  | '\\' :: 'n' :: rest => some (.char (Char.ofNat 10), rest)
  | '\\' :: 'r' :: rest => some (.char (Char.ofNat 13), rest)
  | '\\' :: 't' :: rest => some (.char (Char.ofNat 9), rest)
  | '\\' :: _ => none
  | '"' :: _ => none
  | c :: rest => if c.toNat < 32 then none else some (.char c, rest)
  | [] => none

/-- The characters of a string up to its closing quote. -/
def readItems : Nat → List Char → Option (List Item × List Char)
  | 0, _ => none
  | _ + 1, '"' :: rest => some ([], rest)
  | n + 1, cs => do
      let (item, rest) ← readItem cs
      let (items, rest) ← readItems n rest
      pure (item :: items, rest)

def isHigh (n : Nat) : Bool := 0xd800 ≤ n && n < 0xdc00

def isLow (n : Nat) : Bool := 0xdc00 ≤ n && n < 0xe000

/-- Surrogate pairs become one character. -/
def joinItems : List Item → List Char
  | .unit n :: .unit m :: rest =>
      if isHigh n && isLow m then
        Char.ofNat (0x10000 + (n - 0xd800) * 0x400 + (m - 0xdc00)) :: joinItems rest
      else
        (if isHigh n || isLow n then Char.ofNat 0xfffd else Char.ofNat n) ::
          joinItems (.unit m :: rest)
  | .unit n :: rest =>
      (if isHigh n || isLow n then Char.ofNat 0xfffd else Char.ofNat n) :: joinItems rest
  | .char c :: rest => c :: joinItems rest
  | [] => []

/-- A string after its opening quote. -/
def readString (cs : List Char) : Option (String × List Char) := do
  let (items, rest) ← readItems (cs.length + 1) cs
  pure (String.ofList (joinItems items), rest)

/-! ## Numbers -/

def readDigits (cs : List Char) : Option (List Char × List Char) :=
  let (digits, rest) := cs.span Char.isDigit
  if digits = [] then none else some (digits, rest)

def readFraction : List Char → Option (List Char × List Char)
  | '.' :: rest => readDigits rest
  | rest => some ([], rest)

def readExponent : List Char → Option (Int × List Char)
  | 'e' :: rest | 'E' :: rest =>
      let (sign, rest) : Int × List Char :=
        match rest with
        | '-' :: rest => (-1, rest)
        | '+' :: rest => (1, rest)
        | rest => (1, rest)
      (readDigits rest).map fun (digits, rest) => (sign * Nat.ofDigitChars 10 digits 0, rest)
  | rest => some (0, rest)

/-- A number without its sign; only zero begins with a zero. -/
def readUnsigned (sign : Int) (cs : List Char) : Option (JsonValue × List Char) := do
  let (whole, rest) ← readDigits cs
  if whole.head? = some '0' ∧ whole ≠ ['0'] then none
  else
    let (fraction, rest) ← readFraction rest
    let (exponent, rest) ← readExponent rest
    pure (.num (sign * Nat.ofDigitChars 10 (whole ++ fraction) 0)
      (exponent - fraction.length), rest)

def readNumber : List Char → Option (JsonValue × List Char)
  | '-' :: rest => readUnsigned (-1) rest
  | rest => readUnsigned 1 rest

/-! ## Values -/

mutual

def readValue : Nat → List Char → Option (JsonValue × List Char)
  | 0, _ => none
  | n + 1, cs =>
      match skipSpace cs with
      | '"' :: rest => (readString rest).map fun (s, rest) => (.str s, rest)
      | '[' :: rest =>
          match skipSpace rest with
          | ']' :: rest => some (.arr [], rest)
          | rest => (readElements n rest).map fun (xs, rest) => (.arr xs, rest)
      | '{' :: rest =>
          match skipSpace rest with
          | '}' :: rest => some (.obj [], rest)
          | rest => (readMembers n rest).map fun (ms, rest) => (.obj ms, rest)
      | 'n' :: 'u' :: 'l' :: 'l' :: rest => some (.null, rest)
      | 't' :: 'r' :: 'u' :: 'e' :: rest => some (.bool true, rest)
      | 'f' :: 'a' :: 'l' :: 's' :: 'e' :: rest => some (.bool false, rest)
      | rest => readNumber rest

/-- The elements of an array from one of them on. -/
def readElements : Nat → List Char → Option (List JsonValue × List Char)
  | 0, _ => none
  | n + 1, cs =>
      match readValue n cs with
      | none => none
      | some (x, rest) =>
          match skipSpace rest with
          | ',' :: rest => (readElements n rest).map fun (xs, rest) => (x :: xs, rest)
          | ']' :: rest => some ([x], rest)
          | _ => none

/-- The members of an object from one of them on. -/
def readMembers : Nat → List Char → Option (List (String × JsonValue) × List Char)
  | 0, _ => none
  | n + 1, cs =>
      match skipSpace cs with
      | '"' :: rest =>
          match readString rest with
          | none => none
          | some (k, rest) =>
              match skipSpace rest with
              | ':' :: rest =>
                  match readValue n rest with
                  | none => none
                  | some (v, rest) =>
                      match skipSpace rest with
                      | ',' :: rest =>
                          (readMembers n rest).map fun (ms, rest) => ((k, v) :: ms, rest)
                      | '}' :: rest => some ([(k, v)], rest)
                      | _ => none
              | _ => none
      | _ => none

end

/-- `JSON.parse`. -/
def parse (text : String) : Option JsonValue :=
  match readValue (text.toList.length + 1) text.toList with
  | some (value, rest) => if skipSpace rest = [] then some value else none
  | none => none

/-! ## What is written is read back -/

open Json (escapeChar quoted decimal chars tailChars tailMembers stringify)

/-! ### Strings -/

/-- How a character of a written string is read. -/
def writtenItem (c : Char) : Item :=
  if c.toNat < 32 ∧ c.toNat ∉ [8, 9, 10, 12, 13] then .unit c.toNat else .char c

theorem readItem_escapeChar (c : Char) (rest : List Char) :
    readItem (escapeChar c ++ rest) = some (writtenItem c, rest) := by
  have hchar : c = Char.ofNat c.toNat := (Char.ofNat_toNat c).symm
  by_cases hcontrol : c.toNat < 32
  · generalize c.toNat = n at hchar hcontrol
    subst hchar
    interval_cases n <;> rfl
  · have hitem : writtenItem c = .char c := if_neg fun h => hcontrol h.1
    rw [hitem]
    unfold escapeChar
    by_cases hquote : c = '"'
    · subst hquote
      rfl
    by_cases hslash : c = '\\'
    · subst hslash
      rfl
    rw [if_neg hquote, if_neg hslash, if_neg (by omega), if_neg (by omega), if_neg (by omega),
      if_neg (by omega), if_neg (by omega), if_neg hcontrol]
    rw [List.singleton_append]
    unfold readItem
    split <;> simp_all

theorem readItems_escaped (cs rest : List Char) {n : Nat} (hn : cs.length < n) :
    readItems n (cs.flatMap escapeChar ++ '"' :: rest) = some (cs.map writtenItem, rest) := by
  induction cs generalizing n with
  | nil =>
      obtain ⟨m, rfl⟩ := Nat.exists_eq_succ_of_ne_zero (Nat.ne_zero_of_lt hn)
      rfl
  | cons c cs ih =>
      obtain ⟨m, rfl⟩ := Nat.exists_eq_succ_of_ne_zero (Nat.ne_zero_of_lt hn)
      rw [List.flatMap_cons, List.append_assoc]
      have hitem := readItem_escapeChar c (cs.flatMap escapeChar ++ '"' :: rest)
      have hitems := ih (n := m) (by rw [List.length_cons] at hn; omega)
      generalize htext : escapeChar c ++ (cs.flatMap escapeChar ++ '"' :: rest) = text at hitem
      unfold readItems
      split
      · next heq => cases heq
      · -- the text does not begin with the closing quote
        exact absurd htext Json.escapeChar_append_ne_quote
      · next heq _ =>
          cases heq
          rw [hitem]
          simp only [Option.bind_eq_bind, Option.bind_some, hitems]
          rfl

theorem joinItems_unit {n : Nat} (hn : n < 0xd800) (rest : List Item) :
    joinItems (.unit n :: rest) = Char.ofNat n :: joinItems rest := by
  have hhigh : isHigh n = false := by simp [isHigh]; omega
  have hlow : isLow n = false := by simp [isLow]; omega
  cases rest with
  | nil => simp [joinItems, hhigh, hlow]
  | cons item rest => cases item <;> simp [joinItems, hhigh, hlow]

theorem joinItems_written (cs : List Char) : joinItems (cs.map writtenItem) = cs := by
  induction cs with
  | nil => rfl
  | cons c cs ih =>
      rw [List.map_cons]
      unfold writtenItem
      split_ifs with hcontrol
      · rw [joinItems_unit (by omega), Char.ofNat_toNat]
        exact congrArg (c :: ·) ih
      · rw [joinItems]
        exact congrArg (c :: ·) ih

theorem length_le_length_escaped (cs : List Char) : cs.length ≤ (cs.flatMap escapeChar).length := by
  induction cs with
  | nil => exact le_rfl
  | cons c cs ih =>
      have hpos : 0 < (escapeChar c).length := by
        refine List.length_pos_iff.mpr fun hnil => ?_
        have hread := readItem_escapeChar c []
        rw [hnil] at hread
        cases hread
      rw [List.flatMap_cons, List.length_append, List.length_cons]
      omega

theorem readString_quoted (s : String) (rest : List Char) :
    readString (s.toList.flatMap escapeChar ++ '"' :: rest) = some (s, rest) := by
  have hlength := length_le_length_escaped s.toList
  unfold readString
  rw [readItems_escaped s.toList rest (by rw [List.length_append]; omega)]
  simp only [Option.bind_eq_bind, Option.bind_some, joinItems_written, String.ofList_toList]
  rfl

/-! ### Numbers -/

/-- What may follow a value: nothing, a comma or a closing bracket. -/
def Ends (rest : List Char) : Prop := ∀ c ∈ rest.head?, c = ',' ∨ c = ']' ∨ c = '}'

theorem span_digits {ds rest : List Char} (hds : ∀ c ∈ ds, c.isDigit = true) (hrest : Ends rest) :
    (ds ++ rest).span Char.isDigit = (ds, rest) := by
  rw [List.span_eq_takeWhile_dropWhile]
  have htake : rest.takeWhile Char.isDigit = [] ∧ rest.dropWhile Char.isDigit = rest := by
    cases rest with
    | nil => exact ⟨rfl, rfl⟩
    | cons c rest =>
        have hc : c.isDigit = false := by
          rcases hrest c rfl with rfl | rfl | rfl <;> rfl
        exact ⟨List.takeWhile_cons_of_neg (by rw [hc]; decide),
          List.dropWhile_cons_of_neg (by rw [hc]; decide)⟩
  rw [List.takeWhile_append_of_pos hds, List.dropWhile_append_of_pos hds, htake.1, htake.2,
    List.append_nil]

/-- Only zero begins with a zero. -/
theorem head_toDigits (n : Nat) :
    ¬((Nat.toDigits 10 n).head? = some '0' ∧ Nat.toDigits 10 n ≠ ['0']) := by
  induction n using Nat.strong_induction_on with
  | _ n ih =>
      rintro ⟨hhead, hne⟩
      rw [Nat.toDigits_eq_if (by decide)] at hhead hne
      split_ifs at hhead hne with hlt
      · exact hne (by rw [List.head?_singleton, Option.some.injEq] at hhead; rw [hhead])
      · have hdigits : (Nat.toDigits 10 (n / 10)).head? = some '0' := by
          rw [List.head?_append_of_ne_nil _ Nat.toDigits_ne_nil] at hhead
          exact hhead
        refine ih (n / 10) (by omega) ⟨hdigits, fun hzero => ?_⟩
        have hvalue := Nat.ofDigitChars_ten_toDigits (n := n / 10)
        rw [hzero] at hvalue
        have hten : Nat.ofDigitChars 10 ['0'] 0 = 0 := rfl
        omega

theorem readUnsigned_digits (sign : Int) (n : Nat) {rest : List Char} (hrest : Ends rest) :
    readUnsigned sign (Nat.toDigits 10 n ++ rest) = some (.num (sign * n) 0, rest) := by
  have hdigits : readDigits (Nat.toDigits 10 n ++ rest) = some (Nat.toDigits 10 n, rest) := by
    unfold readDigits
    rw [span_digits (fun _ => Json.toDigits_isDigit) hrest]
    exact if_neg Nat.toDigits_ne_nil
  have hfraction : readFraction rest = some ([], rest) := by
    unfold readFraction
    split
    · have hdot := hrest '.' rfl
      simp at hdot
    · rfl
  have hexponent : readExponent rest = some (0, rest) := by
    unfold readExponent
    split
    · have he := hrest 'e' rfl
      simp at he
    · have he := hrest 'E' rfl
      simp at he
    · rfl
  unfold readUnsigned
  rw [hdigits]
  simp only [Option.bind_eq_bind, Option.bind_some]
  rw [if_neg (head_toDigits n), hfraction]
  simp only [Option.bind_some, hexponent, List.append_nil, Nat.ofDigitChars_ten_toDigits]
  rfl

theorem readNumber_decimal (n : Int) {rest : List Char} (hrest : Ends rest) :
    readNumber (decimal n ++ rest) = some (.num n 0, rest) := by
  cases n with
  | ofNat n =>
      have hread := readUnsigned_digits 1 n hrest
      rw [one_mul] at hread
      unfold readNumber
      split
      · next tail heq =>
          cases hds : Nat.toDigits 10 n with
          | nil => exact absurd hds Nat.toDigits_ne_nil
          | cons c ds =>
              rw [decimal, hds, List.cons_append, List.cons.injEq] at heq
              have hdigit := Json.toDigits_isDigit (n := n) (c := c)
                (by rw [hds]; exact List.mem_cons_self)
              rw [heq.1] at hdigit
              cases hdigit
      · exact hread
  | negSucc n =>
      have hread := readUnsigned_digits (-1) (n + 1) hrest
      have hsign : (-1 : Int) * ((n + 1 : Nat) : Int) = Int.negSucc n := by
        rw [Int.negSucc_eq]
        push_cast
        ring
      rw [hsign] at hread
      exact hread

/-! ### Values -/

theorem skipSpace_cons {c : Char} (hc : isSpace c = false) (rest : List Char) :
    skipSpace (c :: rest) = c :: rest :=
  List.dropWhile_cons_of_neg (by rw [hc]; decide)

/-- A written value begins with no blank, and not like the end of an array. -/
theorem chars_begin (x : Json) :
    ∃ c rest, chars x = c :: rest ∧ isSpace c = false ∧ c ≠ ']' := by
  obtain ⟨c, rest, hchars, hkind, hne⟩ := Json.chars_head x
  refine ⟨c, rest, hchars, ?_, hne⟩
  cases x with
  | num n =>
      obtain ⟨d, tail, hdecimal, hd⟩ := Json.decimal_head n
      rw [chars, hdecimal] at hchars
      obtain ⟨rfl, -⟩ := List.cons.inj hchars
      have hnot : ∀ e : Char, e.isDigit = false → e ≠ '-' → d ≠ e := by
        intro e hdigit hminus heq
        subst heq
        rcases hd with hd | hd
        · rw [hd] at hdigit
          cases hdigit
        · exact hminus hd
      have hblank := hnot ' ' rfl (by decide)
      have htab := hnot '\t' rfl (by decide)
      have hline := hnot '\n' rfl (by decide)
      have hreturn := hnot '\r' rfl (by decide)
      simp [isSpace, hblank, htab, hline, hreturn]
  | null => cases hchars; rfl
  | bool b => cases b <;> cases hchars <;> rfl
  | str s => cases hchars; rfl
  | arr xs => cases xs <;> rw [chars] at hchars <;> cases hchars <;> rfl
  | obj ms =>
      cases ms with
      | nil => rw [chars] at hchars; cases hchars; rfl
      | cons m ms => rw [chars] at hchars; cases hchars; rfl

theorem skipSpace_chars (x : Json) (rest : List Char) :
    skipSpace (chars x ++ rest) = chars x ++ rest := by
  obtain ⟨c, tail, hchars, hblank, -⟩ := chars_begin x
  rw [hchars, List.cons_append, skipSpace_cons hblank]

theorem length_chars_pos (x : Json) : 0 < (chars x).length := by
  obtain ⟨c, tail, hchars, -⟩ := chars_begin x
  rw [hchars]
  exact Nat.succ_pos _

/-- Only a number begins with a digit or with the minus sign. -/
theorem readValue_number {n : Nat} {c : Char} {rest : List Char}
    (hc : c.isDigit = true ∨ c = '-') (hblank : isSpace c = false) :
    readValue (n + 1) (c :: rest) = readNumber (c :: rest) := by
  have hnot : ∀ d : Char, d.isDigit = false → d ≠ '-' → c ≠ d := by
    intro d hdigit hminus heq
    subst heq
    rcases hc with hc | hc
    · rw [hc] at hdigit
      cases hdigit
    · exact hminus hc
  unfold readValue
  rw [skipSpace_cons hblank]
  split
  · next heq => exact absurd (List.cons.inj heq).1 (hnot '"' rfl (by decide))
  · next heq => exact absurd (List.cons.inj heq).1 (hnot '[' rfl (by decide))
  · next heq => exact absurd (List.cons.inj heq).1 (hnot '{' rfl (by decide))
  · next heq => exact absurd (List.cons.inj heq).1 (hnot 'n' rfl (by decide))
  · next heq => exact absurd (List.cons.inj heq).1 (hnot 't' rfl (by decide))
  · next heq => exact absurd (List.cons.inj heq).1 (hnot 'f' rfl (by decide))
  · rfl

theorem ends_tailChars (xs : List Json) (rest : List Char) : Ends (tailChars xs ++ rest) := by
  intro c hc
  cases xs <;> rw [tailChars] at hc <;> cases hc
  · exact .inr (.inl rfl)
  · exact .inl rfl

theorem ends_tailMembers (ms : List (String × Json)) (rest : List Char) :
    Ends (tailMembers ms ++ rest) := by
  intro c hc
  cases ms <;> rw [tailMembers] at hc <;> cases hc
  · exact .inr (.inr rfl)
  · exact .inl rfl

theorem quoted_append (s : String) (rest : List Char) :
    quoted s ++ rest = '"' :: (s.toList.flatMap escapeChar ++ '"' :: rest) := by
  simp [quoted]

/-- With this fuel all texts that fit in it are read back. -/
structure ReadsBack (n : Nat) : Prop where
  value (x : Json) {rest : List Char} : (chars x).length ≤ n → Ends rest →
    readValue n (chars x ++ rest) = some (ofJson x, rest)
  elements (x : Json) (xs : List Json) (rest : List Char) :
    (chars x).length + (tailChars xs).length ≤ n →
    readElements n (chars x ++ (tailChars xs ++ rest)) = some (ofJson x :: ofElements xs, rest)
  members (k : String) (v : Json) (ms : List (String × Json)) (rest : List Char) :
    (quoted k).length + ((chars v).length + (tailMembers ms).length + 1) ≤ n →
    readMembers n (quoted k ++ ':' :: (chars v ++ (tailMembers ms ++ rest))) =
      some ((k, ofJson v) :: ofMembers ms, rest)

theorem ReadsBack.readValue_succ {n : Nat} (h : ReadsBack n) (x : Json) {rest : List Char}
    (hn : (chars x).length ≤ n + 1) (hrest : Ends rest) :
    readValue (n + 1) (chars x ++ rest) = some (ofJson x, rest) := by
  match x with
  | .null => rfl
  | .bool b => cases b <;> rfl
  | .num i =>
      obtain ⟨c, tail, hdecimal, hc⟩ := Json.decimal_head i
      obtain ⟨c', tail', hchars, hblank, -⟩ := chars_begin (.num i)
      rw [chars, hdecimal] at hchars
      obtain ⟨rfl, -⟩ := List.cons.inj hchars
      have hread := readNumber_decimal i hrest
      rw [hdecimal, List.cons_append] at hread
      rw [chars, hdecimal, List.cons_append, readValue_number hc hblank, hread, ofJson]
  | .str s =>
      rw [chars, quoted_append]
      unfold readValue
      rw [skipSpace_cons rfl]
      simp only [readString_quoted, Option.map_some]
      rw [ofJson]
  | .arr [] => rfl
  | .arr (y :: ys) =>
      rw [chars, List.length_cons, List.length_append] at hn
      have hread := h.elements y ys rest (by omega)
      rw [chars, List.cons_append, List.append_assoc]
      unfold readValue
      rw [skipSpace_cons rfl]
      simp only [skipSpace_chars]
      split
      · next heq => exact absurd heq Json.chars_append_ne_close
      · rw [hread, ofJson, ofElements]
        rfl
  | .obj [] => rfl
  | .obj ((k, v) :: ms) =>
      rw [chars, List.length_cons, List.length_append, List.length_cons,
        List.length_append] at hn
      have hread := h.members k v ms rest (by omega)
      rw [chars, List.cons_append, List.append_assoc, List.cons_append, List.append_assoc]
      unfold readValue
      rw [skipSpace_cons rfl]
      rw [quoted_append] at hread ⊢
      simp only [skipSpace_cons (c := '"') rfl]
      split
      · next heq => cases heq
      · rw [hread, ofJson, ofMembers]
        rfl

theorem ReadsBack.readElements_succ {n : Nat} (h : ReadsBack n) (x : Json) (xs : List Json)
    (rest : List Char) (hn : (chars x).length + (tailChars xs).length ≤ n + 1) :
    readElements (n + 1) (chars x ++ (tailChars xs ++ rest)) =
      some (ofJson x :: ofElements xs, rest) := by
  have hpos := length_chars_pos x
  cases xs with
  | nil =>
      rw [tailChars, List.length_singleton] at hn
      have hread := h.value x (by omega) (ends_tailChars [] rest)
      unfold readElements
      rw [hread]
      rfl
  | cons y ys =>
      rw [tailChars, List.length_cons, List.length_append] at hn
      have hread := h.value x (by omega) (ends_tailChars (y :: ys) rest)
      have htail := h.elements y ys rest (by omega)
      unfold readElements
      rw [hread, tailChars, List.cons_append, List.append_assoc]
      simp only [skipSpace_cons (c := ',') rfl]
      rw [htail, ofElements]
      rfl

theorem ReadsBack.readMembers_succ {n : Nat} (h : ReadsBack n) (k : String) (v : Json)
    (ms : List (String × Json)) (rest : List Char)
    (hn : (quoted k).length + ((chars v).length + (tailMembers ms).length + 1) ≤ n + 1) :
    readMembers (n + 1) (quoted k ++ ':' :: (chars v ++ (tailMembers ms ++ rest))) =
      some ((k, ofJson v) :: ofMembers ms, rest) := by
  have hname : 0 < (quoted k).length := Nat.succ_pos _
  rw [quoted_append]
  unfold readMembers
  rw [skipSpace_cons rfl]
  simp only [readString_quoted, skipSpace_cons (c := ':') rfl]
  cases ms with
  | nil =>
      rw [tailMembers, List.length_singleton] at hn
      rw [h.value v (by omega) (ends_tailMembers [] rest)]
      rfl
  | cons m ms =>
      obtain ⟨k', v'⟩ := m
      rw [tailMembers, List.length_cons, List.length_append, List.length_cons,
        List.length_append] at hn
      have htail := h.members k' v' ms rest (by omega)
      rw [h.value v (by omega) (ends_tailMembers ((k', v') :: ms) rest), tailMembers,
        List.cons_append, List.append_assoc, List.cons_append, List.append_assoc]
      simp only [skipSpace_cons (c := ',') rfl]
      rw [htail, ofMembers]
      rfl

theorem readsBack (n : Nat) : ReadsBack n := by
  induction n with
  | zero =>
      refine ⟨fun x _ hn => ?_, fun x _ _ hn => ?_, fun _ v _ _ hn => ?_⟩
      · exact absurd (length_chars_pos x) (by omega)
      · exact absurd (length_chars_pos x) (by omega)
      · exact absurd (length_chars_pos v) (by omega)
  | succ n ih => exact ⟨ih.readValue_succ, ih.readElements_succ, ih.readMembers_succ⟩

/-- A written value is read back. -/
theorem parse_stringify (x : Json) : parse (stringify x) = some (ofJson x) := by
  have hread : readValue ((chars x).length + 1) (chars x ++ []) = some (ofJson x, []) :=
    (readsBack _).value x (by omega) nofun
  rw [List.append_nil] at hread
  unfold parse
  rw [stringify, String.toList_ofList, hread]
  rfl

end JsonValue

end Refearn.Support
