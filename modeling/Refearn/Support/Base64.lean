import Mathlib.Data.List.Basic
import Mathlib.Tactic.IntervalCases
/-!
# Base64
-/

/-!
## Base64url texts

`Buffer.toString('base64url')`, which writes three bytes as four letters and has no padding,
and `Buffer.from(text, 'base64url')`, which reads either alphabet and skips any other
character.
-/

namespace Refearn.Support.Base64Url

def alphabet : List Char :=
  "ABCDEFGHIJKLMNOPQRSTUVWXYZabcdefghijklmnopqrstuvwxyz0123456789-_".toList

/-- The letter of the last six bits of a number. -/
def letter (n : Nat) : Char := alphabet.getD (n % 64) 'A'

def sextet (c : Char) : Option Nat :=
  if c = '+' then some 62 else if c = '/' then some 63 else alphabet.idxOf? c

def encode : List UInt8 → List Char
  | [] => []
  | [a] => [letter (a.toNat / 4), letter (a.toNat % 4 * 16)]
  | [a, b] =>
      [letter (a.toNat / 4), letter (a.toNat % 4 * 16 + b.toNat / 16), letter (b.toNat % 16 * 4)]
  | a :: b :: c :: rest =>
      letter (a.toNat / 4) :: letter (a.toNat % 4 * 16 + b.toNat / 16) ::
        letter (b.toNat % 16 * 4 + c.toNat / 64) :: letter (c.toNat % 64) :: encode rest

/-- The bytes of a list of six bits each; bits that fill no byte are dropped. -/
def bytesOf : List Nat → List UInt8
  | w :: x :: y :: z :: rest =>
      .ofNat (w * 4 + x / 16) :: .ofNat (x % 16 * 16 + y / 4) :: .ofNat (y % 4 * 64 + z) ::
        bytesOf rest
  | [w, x, y] => [.ofNat (w * 4 + x / 16), .ofNat (x % 16 * 16 + y / 4)]
  | [w, x] => [.ofNat (w * 4 + x / 16)]
  | [_] => []
  | [] => []

def decode (cs : List Char) : List UInt8 := bytesOf (cs.filterMap sextet)

/-- The letters of the alphabet, as the pattern `[A-Za-z0-9_-]` has them. -/
def isLetter (c : Char) : Bool := c ∈ alphabet

theorem alphabet_eq : alphabet =
    ['A', 'B', 'C', 'D', 'E', 'F', 'G', 'H', 'I', 'J', 'K', 'L', 'M', 'N', 'O', 'P', 'Q', 'R', 'S',
      'T', 'U', 'V', 'W', 'X', 'Y', 'Z', 'a', 'b', 'c', 'd', 'e', 'f', 'g', 'h', 'i', 'j', 'k', 'l',
      'm', 'n', 'o', 'p', 'q', 'r', 's', 't', 'u', 'v', 'w', 'x', 'y', 'z', '0', '1', '2', '3', '4',
      '5', '6', '7', '8', '9', '-', '_'] :=
  String.toList_ofList

theorem sextet_letter (n : Nat) : sextet (letter n) = some (n % 64) := by
  have hlt : n % 64 < 64 := Nat.mod_lt _ (by decide)
  have hall : ∀ x < 64, sextet (letter x) = some x := by
    unfold sextet letter
    rw [alphabet_eq]
    decide
  have hmod : letter (n % 64) = letter n := by
    unfold letter
    rw [Nat.mod_mod]
  rw [← hmod]
  exact hall _ hlt

theorem isLetter_letter (n : Nat) : isLetter (letter n) = true := by
  have hlt : n % 64 < alphabet.length := by
    rw [alphabet_eq]
    exact Nat.mod_lt _ (by decide)
  unfold isLetter letter
  rw [List.getD_eq_getElem?_getD, List.getElem?_eq_getElem hlt, Option.getD_some,
    decide_eq_true_eq]
  exact List.getElem_mem hlt

theorem ofNat_eq {a : UInt8} {n : Nat} (h : n = a.toNat) : UInt8.ofNat n = a := by
  rw [h]
  exact UInt8.ofNat_toNat

/-- Four letters give the three bytes back. -/
theorem decode_encode (bytes : List UInt8) : decode (encode bytes) = bytes := by
  unfold decode
  induction bytes using encode.induct with
  | case1 => rfl
  | case2 a =>
      have ha := a.toNat_lt
      simp only [encode, List.filterMap_cons, sextet_letter, List.filterMap_nil, bytesOf]
      rw [ofNat_eq (a := a) (by omega)]
  | case3 a b =>
      have ha := a.toNat_lt
      have hb := b.toNat_lt
      simp only [encode, List.filterMap_cons, sextet_letter, List.filterMap_nil, bytesOf]
      rw [ofNat_eq (a := a) (by omega), ofNat_eq (a := b) (by omega)]
  | case4 a b c rest ih =>
      have ha := a.toNat_lt
      have hb := b.toNat_lt
      have hc := c.toNat_lt
      simp only [encode, List.filterMap_cons, sextet_letter, bytesOf]
      rw [ofNat_eq (a := a) (by omega), ofNat_eq (a := b) (by omega),
        ofNat_eq (a := c) (by omega), ih]

theorem encode_injective : Function.Injective encode :=
  Function.LeftInverse.injective decode_encode

theorem isLetter_of_mem_encode {bytes : List UInt8} {c : Char} (h : c ∈ encode bytes) :
    isLetter c = true := by
  induction bytes using encode.induct with
  | case1 => cases h
  | case2 a =>
      simp only [encode, List.mem_cons, List.not_mem_nil, or_false] at h
      rcases h with rfl | rfl <;> exact isLetter_letter _
  | case3 a b =>
      simp only [encode, List.mem_cons, List.not_mem_nil, or_false] at h
      rcases h with rfl | rfl | rfl <;> exact isLetter_letter _
  | case4 a b d rest ih =>
      simp only [encode, List.mem_cons] at h
      rcases h with rfl | rfl | rfl | rfl | hrest
      · exact isLetter_letter _
      · exact isLetter_letter _
      · exact isLetter_letter _
      · exact isLetter_letter _
      · exact ih hrest

theorem length_encode (bytes : List UInt8) :
    (encode bytes).length = (4 * bytes.length + 2) / 3 := by
  induction bytes using encode.induct with
  | case1 => rfl
  | case2 a => simp [encode]
  | case3 a b => simp [encode]
  | case4 a b c rest ih =>
      simp only [encode, List.length_cons, ih]
      omega

/-- The alphabet is that of printable characters without a dot. -/
theorem isLetter_bounds {c : Char} (h : isLetter c = true) :
    0x21 ≤ c.toNat ∧ c.toNat ≤ 0x7e ∧ c ≠ '.' := by
  have hmem : c ∈ alphabet := by simpa [isLetter] using h
  have hall : alphabet.all (fun d => 0x21 ≤ d.toNat ∧ d.toNat ≤ 0x7e ∧ d ≠ '.') = true := by
    rw [alphabet_eq]
    decide
  exact of_decide_eq_true (List.all_eq_true.mp hall c hmem)

end Refearn.Support.Base64Url

/-!
## Base64 texts

`Buffer.toString('base64')`: the letters of base64url but for the last two, and `=` up to a
multiple of four. `Buffer.from(text, 'base64')` reads as base64url does.
-/

namespace Refearn.Support.Base64

/-- The letter of base64 for one of base64url. -/
def standard (c : Char) : Char := if c = '-' then '+' else if c = '_' then '/' else c

def letter (n : Nat) : Char := standard (Base64Url.letter n)

def encode : List UInt8 → List Char
  | [] => []
  | [a] => [letter (a.toNat / 4), letter (a.toNat % 4 * 16), '=', '=']
  | [a, b] =>
      [letter (a.toNat / 4), letter (a.toNat % 4 * 16 + b.toNat / 16),
        letter (b.toNat % 16 * 4), '=']
  | a :: b :: c :: rest =>
      letter (a.toNat / 4) :: letter (a.toNat % 4 * 16 + b.toNat / 16) ::
        letter (b.toNat % 16 * 4 + c.toNat / 64) :: letter (c.toNat % 64) :: encode rest

def decode (cs : List Char) : List UInt8 := Base64Url.decode cs

/-- The letters of the pattern `[A-Za-z0-9+/]`. -/
def isLetter (c : Char) : Bool := c ∈ Base64Url.alphabet.map standard

/-- `/^(?:[A-Za-z0-9+\/]{4})*(?:[A-Za-z0-9+\/]{2}==|[A-Za-z0-9+\/]{3}=)?$/`. -/
def isBase64 : List Char → Bool
  | [] => true
  | a :: b :: c :: d :: rest =>
      isLetter a && isLetter b &&
        (isLetter c && isLetter d && isBase64 rest ||
          (isLetter c || c = '=') && d = '=' && rest.isEmpty)
  | _ => false

theorem sextet_standard (n : Nat) : Base64Url.sextet (letter n) = some (n % 64) := by
  have hlt : n % 64 < 64 := Nat.mod_lt _ (by decide)
  have hall : ∀ x < 64, Base64Url.sextet (letter x) = some x := by
    unfold Base64Url.sextet letter Base64Url.letter
    rw [Base64Url.alphabet_eq]
    decide
  have hmod : letter (n % 64) = letter n := by
    unfold letter Base64Url.letter
    rw [Nat.mod_mod]
  rw [← hmod]
  exact hall _ hlt

theorem sextet_pad : Base64Url.sextet '=' = none := by
  unfold Base64Url.sextet
  rw [Base64Url.alphabet_eq]
  decide

theorem isLetter_letter (n : Nat) : isLetter (letter n) = true := by
  have h := Base64Url.isLetter_letter n
  unfold Base64Url.isLetter at h
  unfold isLetter letter
  rw [decide_eq_true_eq] at h ⊢
  exact List.mem_map_of_mem h

/-- The bytes come back, whatever fills the last four letters. -/
theorem decode_encode (bytes : List UInt8) : decode (encode bytes) = bytes := by
  unfold decode Base64Url.decode
  induction bytes using encode.induct with
  | case1 => rfl
  | case2 a =>
      have ha := a.toNat_lt
      simp only [encode, List.filterMap_cons, sextet_standard, sextet_pad, List.filterMap_nil,
        Base64Url.bytesOf]
      rw [Base64Url.ofNat_eq (a := a) (by omega)]
  | case3 a b =>
      have ha := a.toNat_lt
      have hb := b.toNat_lt
      simp only [encode, List.filterMap_cons, sextet_standard, sextet_pad, List.filterMap_nil,
        Base64Url.bytesOf]
      rw [Base64Url.ofNat_eq (a := a) (by omega), Base64Url.ofNat_eq (a := b) (by omega)]
  | case4 a b c rest ih =>
      have ha := a.toNat_lt
      have hb := b.toNat_lt
      have hc := c.toNat_lt
      simp only [encode, List.filterMap_cons, sextet_standard, Base64Url.bytesOf]
      rw [Base64Url.ofNat_eq (a := a) (by omega), Base64Url.ofNat_eq (a := b) (by omega),
        Base64Url.ofNat_eq (a := c) (by omega), ih]

theorem isBase64_encode (bytes : List UInt8) : isBase64 (encode bytes) = true := by
  induction bytes using encode.induct with
  | case1 => rfl
  | case2 a => simp [encode, isBase64, isLetter_letter]
  | case3 a b => simp [encode, isBase64, isLetter_letter]
  | case4 a b c rest ih => simp [encode, isBase64, isLetter_letter, ih]

theorem encode_ne_nil {bytes : List UInt8} (h : bytes ≠ []) : encode bytes ≠ [] := by
  cases bytes using encode.fun_cases with
  | case1 => exact absurd rfl h
  | case2 | case3 | case4 =>
      unfold encode
      exact List.cons_ne_nil _ _

theorem dot_notMem_encode (bytes : List UInt8) : '.' ∉ encode bytes := by
  have hletter : ∀ n, '.' ≠ letter n := by
    intro n heq
    have hsextet := sextet_standard n
    rw [← heq] at hsextet
    have hnone : Base64Url.sextet '.' = none := by
      unfold Base64Url.sextet
      rw [Base64Url.alphabet_eq]
      decide
    rw [hnone] at hsextet
    cases hsextet
  have hpad : '.' ≠ '=' := by decide
  induction bytes using encode.induct with
  | case1 => exact List.not_mem_nil
  | case2 a => simp [encode, hletter]
  | case3 a b => simp [encode, hletter]
  | case4 a b c rest ih => simp [encode, hletter, ih]

end Refearn.Support.Base64
