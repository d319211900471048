import Mathlib.Data.List.Basic
import Mathlib.Tactic.Linarith
/-!
# UTF-8

`Buffer.from(text, 'utf8')` and `buffer.toString('utf8')`. Reading puts U+FFFD in place of the
longest beginning of a character that does not go on as it should.
-/

namespace Refearn.Support.Utf8

def encode (cs : List Char) : List UInt8 := cs.flatMap String.utf8EncodeChar

/-- The bytes that a character still needs, the range of the next one, and the bits so far. -/
structure State where
  needed : Nat
  lower : Nat
  upper : Nat
  point : Nat

def start : State := ⟨0, 0x80, 0xbf, 0⟩

def replacement : Char := Char.ofNat 0xfffd

/-- The first byte of a character. -/
def first (b : Nat) : List Char × State :=
  if b < 0x80 then ([Char.ofNat b], start)
  else if 0xc2 ≤ b ∧ b ≤ 0xdf then ([], ⟨1, 0x80, 0xbf, b - 0xc0⟩)
  else if 0xe0 ≤ b ∧ b ≤ 0xef then
    ([], ⟨2, if b = 0xe0 then 0xa0 else 0x80, if b = 0xed then 0x9f else 0xbf, b - 0xe0⟩)
  else if 0xf0 ≤ b ∧ b ≤ 0xf4 then
    ([], ⟨3, if b = 0xf0 then 0x90 else 0x80, if b = 0xf4 then 0x8f else 0xbf, b - 0xf0⟩)
  else ([replacement], start)

/-- The character of a code point; the ranges leave only such points. -/
def charOf (point : Nat) : Char := if point.isValidChar then Char.ofNat point else replacement

def next (st : State) (b : Nat) : List Char × State :=
  if st.needed = 0 then first b
  else if st.lower ≤ b ∧ b ≤ st.upper then
    if st.needed = 1 then ([charOf (st.point * 64 + (b - 0x80))], start)
    else ([], ⟨st.needed - 1, 0x80, 0xbf, st.point * 64 + (b - 0x80)⟩)
  else (replacement :: (first b).1, (first b).2)

def decodeFrom (st : State) : List UInt8 → List Char
  | [] => if st.needed = 0 then [] else [replacement]
  | b :: bs => (next st b.toNat).1 ++ decodeFrom (next st b.toNat).2 bs

def decode (bytes : List UInt8) : List Char := decodeFrom start bytes

/-! ## Reading what was written -/

theorem decodeFrom_cons (st : State) (b : UInt8) (bs : List UInt8) :
    decodeFrom st (b :: bs) = (next st b.toNat).1 ++ decodeFrom (next st b.toNat).2 bs := rfl

theorem toNat_ofNat_byte {n : Nat} (h : n < 256) : (UInt8.ofNat n).toNat = n := by
  rw [UInt8.toNat_ofNat', Nat.mod_eq_of_lt h]

/-- The last byte of a character. -/
theorem decodeFrom_last {lower upper point b : Nat} (bs : List UInt8) (hb : b < 256)
    (hlower : lower ≤ b) (hupper : b ≤ upper) :
    decodeFrom ⟨1, lower, upper, point⟩ (.ofNat b :: bs) =
      charOf (point * 64 + (b - 0x80)) :: decodeFrom start bs := by
  rw [decodeFrom_cons, toNat_ofNat_byte hb, next, if_neg Nat.one_ne_zero,
    if_pos ⟨hlower, hupper⟩, if_pos rfl]
  rfl

/-- A byte in the middle of a character. -/
theorem decodeFrom_middle {needed lower upper point b : Nat} (bs : List UInt8) (hb : b < 256)
    (hlower : lower ≤ b) (hupper : b ≤ upper) :
    decodeFrom ⟨needed + 2, lower, upper, point⟩ (.ofNat b :: bs) =
      decodeFrom ⟨needed + 1, 0x80, 0xbf, point * 64 + (b - 0x80)⟩ bs := by
  rw [decodeFrom_cons, toNat_ofNat_byte hb, next, if_neg (Nat.succ_ne_zero _),
    if_pos ⟨hlower, hupper⟩, if_neg (by simp)]
  rfl

theorem decodeFrom_start {b : Nat} (bs : List UInt8) (hb : b < 256) :
    decodeFrom start (.ofNat b :: bs) = (first b).1 ++ decodeFrom (first b).2 bs := by
  rw [decodeFrom_cons, toNat_ofNat_byte hb]
  rfl

theorem charOf_toNat (c : Char) : charOf c.toNat = c := by
  have hvalid : c.toNat.isValidChar := c.valid
  rw [charOf, if_pos hvalid, Char.ofNat_toNat]

/-- A character is read back whole, with the ranges that its first byte leaves to the second. -/
theorem decodeFrom_encodeChar (c : Char) (bs : List UInt8) :
    decodeFrom start (String.utf8EncodeChar c ++ bs) = c :: decodeFrom start bs := by
  have hvalid : c.toNat < 0xd800 ∨ 0xdfff < c.toNat ∧ c.toNat < 0x110000 := c.valid
  have hchar := charOf_toNat c
  unfold String.utf8EncodeChar
  change decodeFrom start ((ite (c.toNat ≤ 0x7f) _ _ : List UInt8) ++ bs) = _
  generalize hv : c.val.toNat = v
  change c.toNat = v at hv
  rw [hv] at hvalid hchar ⊢
  by_cases hone : v ≤ 0x7f
  · rw [if_pos hone, List.cons_append, decodeFrom_start _ (by omega), first, if_pos (by omega)]
    rw [charOf, if_pos (.inl (by omega))] at hchar
    rw [hchar]
    rfl
  rw [if_neg hone]
  by_cases htwo : v ≤ 0x7ff
  · rw [if_pos htwo]
    simp only [List.cons_append, List.nil_append]
    rw [decodeFrom_start _ (by omega), first, if_neg (by omega), if_pos (by omega)]
    simp only [List.nil_append]
    rw [decodeFrom_last _ (by omega) (by omega) (by omega)]
    rw [show (v / 64 % 32 + 0xc0 - 0xc0) * 64 + (v % 64 + 0x80 - 0x80) = v by omega, hchar]
  rw [if_neg htwo]
  by_cases hthree : v ≤ 0xffff
  · rw [if_pos hthree]
    simp only [List.cons_append, List.nil_append]
    rw [decodeFrom_start _ (by omega), first, if_neg (by omega), if_neg (by omega),
      if_pos (by omega)]
    simp only [List.nil_append]
    rw [decodeFrom_middle _ (by omega) (by split_ifs <;> omega) (by split_ifs <;> omega),
      decodeFrom_last _ (by omega) (by omega) (by omega)]
    rw [show ((v / 4096 % 16 + 0xe0 - 0xe0) * 64 + (v / 64 % 64 + 0x80 - 0x80)) * 64 +
      (v % 64 + 0x80 - 0x80) = v by omega, hchar]
  · rw [if_neg hthree]
    simp only [List.cons_append, List.nil_append]
    rw [decodeFrom_start _ (by omega), first, if_neg (by omega), if_neg (by omega),
      if_neg (by omega), if_pos (by omega)]
    simp only [List.nil_append]
    rw [decodeFrom_middle _ (by omega) (by split_ifs <;> omega) (by split_ifs <;> omega),
      decodeFrom_middle _ (by omega) (by omega) (by omega),
      decodeFrom_last _ (by omega) (by omega) (by omega)]
    rw [show (((v / 262144 % 8 + 0xf0 - 0xf0) * 64 + (v / 4096 % 64 + 0x80 - 0x80)) * 64 +
      (v / 64 % 64 + 0x80 - 0x80)) * 64 + (v % 64 + 0x80 - 0x80) = v by omega, hchar]

theorem decode_encode (cs : List Char) : decode (encode cs) = cs := by
  induction cs with
  | nil => rfl
  | cons c cs ih =>
      unfold decode encode at ih ⊢
      rw [List.flatMap_cons, decodeFrom_encodeChar, ih]

/-! ## Texts of seven bits -/

/-- What is read from here on has a character of more than seven bits. -/
structure Pending (st : State) : Prop where
  needed : 0 < st.needed
  lower : 0x80 ≤ st.lower
  point : 0x80 ≤ (st.point * 64 + (st.lower - 0x80)) * 64 ^ (st.needed - 1)

theorem replacement_large : 0x80 ≤ replacement.toNat := by decide

theorem toNat_ofNat {n : Nat} (h : n.isValidChar) : (Char.ofNat n).toNat = n := by
  unfold Char.ofNat
  rw [dif_pos h]
  rfl

theorem charOf_large {point : Nat} (h : 0x80 ≤ point) : 0x80 ≤ (charOf point).toNat := by
  unfold charOf
  split_ifs with hvalid
  · rw [toNat_ofNat hvalid]
    exact h
  · exact replacement_large

theorem first_large {b : Nat} (h : 0x80 ≤ b) :
    (∃ c ∈ (first b).1, 0x80 ≤ c.toNat) ∨ Pending (first b).2 := by
  unfold first
  rw [if_neg (by omega)]
  by_cases htwo : 0xc2 ≤ b ∧ b ≤ 0xdf
  · rw [if_pos htwo]
    exact .inr ⟨Nat.one_pos, le_rfl, by simp only; omega⟩
  rw [if_neg htwo]
  by_cases hthree : 0xe0 ≤ b ∧ b ≤ 0xef
  · rw [if_pos hthree]
    refine .inr ⟨Nat.two_pos, ?_, ?_⟩
    · simp only
      split_ifs <;> omega
    · simp only
      split_ifs <;> omega
  rw [if_neg hthree]
  by_cases hfour : 0xf0 ≤ b ∧ b ≤ 0xf4
  · rw [if_pos hfour]
    refine .inr ⟨(by decide : 0 < 3), ?_, ?_⟩
    · simp only
      split_ifs <;> omega
    · simp only
      split_ifs <;> omega
  · rw [if_neg hfour]
    exact .inl ⟨_, List.mem_singleton_self _, replacement_large⟩

theorem pending_large {st : State} (h : Pending st) (bytes : List UInt8) :
    ∃ c ∈ decodeFrom st bytes, 0x80 ≤ c.toNat := by
  have hneeded := h.needed
  induction bytes generalizing st with
  | nil =>
      unfold decodeFrom
      rw [if_neg (by omega)]
      exact ⟨_, List.mem_singleton_self _, replacement_large⟩
  | cons b bytes ih =>
      have hpoint := h.point
      unfold decodeFrom next
      rw [if_neg (by omega)]
      split_ifs with hrange hlast
      · refine ⟨_, List.mem_append_left _ (List.mem_singleton_self _), charOf_large ?_⟩
        rw [hlast] at hpoint
        simp only [Nat.sub_self, Nat.pow_zero, Nat.mul_one] at hpoint
        omega
      · have hrest := @ih ⟨st.needed - 1, 0x80, 0xbf, st.point * 64 + (b.toNat - 0x80)⟩
        refine hrest ⟨by simp only; omega, le_rfl, ?_⟩ (by simp only; omega)
        have hpow : 64 * 64 ^ (st.needed - 1 - 1) = 64 ^ (st.needed - 1) := by
          rw [← Nat.pow_succ']
          congr 1
          omega
        calc 0x80 ≤ (st.point * 64 + (st.lower - 0x80)) * 64 ^ (st.needed - 1) := hpoint
          _ ≤ (st.point * 64 + (b.toNat - 0x80)) * 64 ^ (st.needed - 1) := by
              apply Nat.mul_le_mul_right
              omega
          _ = _ := by
              rw [← hpow]
              simp only [Nat.sub_self, Nat.add_zero]
              rw [Nat.mul_assoc]
      · exact ⟨_, List.mem_append_left _ List.mem_cons_self, replacement_large⟩

theorem encodeChar_small {c : Char} (h : c.toNat < 0x80) :
    String.utf8EncodeChar c = [UInt8.ofNat c.toNat] := by
  have hsize : c.utf8Size = 1 := by
    rw [Char.utf8Size_eq_one_iff]
    exact UInt32.le_iff_toNat_le.mpr (Nat.le_of_lt_succ h)
  rw [String.utf8EncodeChar_eq_singleton hsize]
  rfl

/-- Bytes that read as characters of seven bits are what writes these. -/
theorem encode_decode {bytes : List UInt8} (h : ∀ c ∈ decode bytes, c.toNat < 0x80) :
    encode (decode bytes) = bytes := by
  induction bytes with
  | nil => rfl
  | cons b bytes ih =>
      have hdecode : decode (b :: bytes) = (first b.toNat).1 ++ decodeFrom (first b.toNat).2 bytes :=
        rfl
      by_cases hsmall : b.toNat < 0x80
      · have hfirst : first b.toNat = ([Char.ofNat b.toNat], start) := if_pos hsmall
        rw [hdecode, hfirst] at h ⊢
        have hchar : (Char.ofNat b.toNat).toNat = b.toNat :=
          toNat_ofNat (.inl (by omega))
        have hrest : encode (decode bytes) = bytes :=
          ih fun c hc => h c (List.mem_append_right _ hc)
        unfold encode at hrest ⊢
        rw [List.flatMap_append, List.flatMap_singleton, encodeChar_small (by omega), hchar,
          UInt8.ofNat_toNat]
        exact congrArg (b :: ·) hrest
      · rw [hdecode] at h
        rcases first_large (not_lt.mp hsmall) with ⟨c, hc, hlarge⟩ | hpending
        · have hlt := h c (List.mem_append_left _ hc)
          omega
        · obtain ⟨c, hc, hlarge⟩ := pending_large hpending bytes
          have hlt := h c (List.mem_append_right _ hc)
          omega

theorem length_encode {cs : List Char} (h : ∀ c ∈ cs, c.toNat < 0x80) :
    (encode cs).length = cs.length := by
  induction cs with
  | nil => rfl
  | cons c cs ih =>
      have hrest := ih fun d hd => h d (List.mem_cons_of_mem _ hd)
      unfold encode at hrest ⊢
      rw [List.flatMap_cons, encodeChar_small (h c List.mem_cons_self), List.length_append, hrest]
      simp [Nat.add_comm]

end Refearn.Support.Utf8
