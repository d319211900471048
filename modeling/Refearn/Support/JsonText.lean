import Refearn.Support.Json
/-!
# JSON texts determine their values

No text of a value is the beginning of another one, as long as what follows a number
is not a digit. So two values of one text are the same value.
-/

namespace Refearn.Support.Json

/-! ## Characters of a string -/

/-- What two hexadecimal digits stand for. -/
def hexValue (c : Char) : Nat := "0123456789abcdef".toList.idxOf c

/-- Read one escaped character off a text. -/
def unescape : List Char → Option (Char × List Char)
  | '\\' :: 'u' :: '0' :: '0' :: a :: b :: rest =>
      some (Char.ofNat (16 * hexValue a + hexValue b), rest)
  | '\\' :: 'b' :: rest => some (Char.ofNat 8, rest)
  | '\\' :: 't' :: rest => some (Char.ofNat 9, rest)
  | '\\' :: 'n' :: rest => some (Char.ofNat 10, rest)
  | '\\' :: 'f' :: rest => some (Char.ofNat 12, rest)
  | '\\' :: 'r' :: rest => some (Char.ofNat 13, rest)
  | '\\' :: c :: rest => some (c, rest)
  | '\\' :: [] => none
  | '"' :: _ => none
  | c :: rest => some (c, rest)
  | [] => none

theorem unescape_escapeChar (c : Char) (rest : List Char) :
    unescape (escapeChar c ++ rest) = some (c, rest) := by
  have hchar : c = Char.ofNat c.toNat := (Char.ofNat_toNat c).symm
  by_cases hcontrol : c.toNat < 32
  · generalize c.toNat = n at hchar hcontrol
    subst hchar
    interval_cases n <;> rfl
  · unfold escapeChar
    by_cases hquote : c = '"'
    · subst hquote
      rfl
    by_cases hslash : c = '\\'
    · subst hslash
      rfl
    rw [if_neg hquote, if_neg hslash, if_neg (by omega), if_neg (by omega), if_neg (by omega),
      if_neg (by omega), if_neg (by omega), if_neg hcontrol]
    rw [List.singleton_append]
    unfold unescape
    split <;> simp_all

theorem escapeChar_append_inj {c c' : Char} {rest rest' : List Char}
    (h : escapeChar c ++ rest = escapeChar c' ++ rest') : c = c' ∧ rest = rest' := by
  have hread := unescape_escapeChar c rest
  rw [h, unescape_escapeChar c' rest'] at hread
  cases hread
  exact ⟨rfl, rfl⟩

/-- No escaped character begins like the closing quote. -/
theorem escapeChar_append_ne_quote {c : Char} {rest rest' : List Char} :
    escapeChar c ++ rest ≠ '"' :: rest' := by
  intro h
  have hread := unescape_escapeChar c rest
  rw [h] at hread
  cases hread

theorem quoted_append_inj {s s' : String} {rest rest' : List Char}
    (h : quoted s ++ rest = quoted s' ++ rest') : s = s' ∧ rest = rest' := by
  have hchars : ∀ cs cs' : List Char,
      cs.flatMap escapeChar ++ ('"' :: rest) = cs'.flatMap escapeChar ++ ('"' :: rest') →
        cs = cs' ∧ rest = rest' := by
    intro cs
    induction cs with
    | nil =>
        intro cs' h
        cases cs' with
        | nil =>
            cases h
            exact ⟨rfl, rfl⟩
        | cons c' cs' =>
            rw [List.flatMap_cons, List.append_assoc] at h
            exact absurd h.symm escapeChar_append_ne_quote
    | cons c cs ih =>
        intro cs' h
        cases cs' with
        | nil =>
            rw [List.flatMap_cons, List.append_assoc] at h
            exact absurd h escapeChar_append_ne_quote
        | cons c' cs' =>
            rw [List.flatMap_cons, List.flatMap_cons, List.append_assoc, List.append_assoc] at h
            obtain ⟨rfl, htail⟩ := escapeChar_append_inj h
            obtain ⟨rfl, hrest⟩ := ih cs' htail
            exact ⟨rfl, hrest⟩
  have htail : s.toList.flatMap escapeChar ++ ('"' :: rest) =
      s'.toList.flatMap escapeChar ++ ('"' :: rest') := by
    simpa [quoted] using h
  obtain ⟨hs, hrest⟩ := hchars _ _ htail
  exact ⟨String.toList_inj.mp hs, hrest⟩

/-! ## Numbers -/

/-- What may follow a value: nothing, or a character that is no digit. -/
def NoDigit (rest : List Char) : Prop := ∀ c ∈ rest.head?, c.isDigit = false

theorem digits_append_inj {ds ds' rest rest' : List Char} (hds : ∀ c ∈ ds, c.isDigit = true)
    (hds' : ∀ c ∈ ds', c.isDigit = true) (hrest : NoDigit rest) (hrest' : NoDigit rest')
    (h : ds ++ rest = ds' ++ rest') : ds = ds' ∧ rest = rest' := by
  induction ds generalizing ds' with
  | nil =>
      cases ds' with
      | nil => exact ⟨rfl, h⟩
      | cons d ds' =>
          have hdigit := hds' d List.mem_cons_self
          have hnone := hrest d (by rw [List.nil_append] at h; rw [h]; rfl)
          rw [hdigit] at hnone
          cases hnone
  | cons d ds ih =>
      cases ds' with
      | nil =>
          have hdigit := hds d List.mem_cons_self
          have hnone := hrest' d (by rw [List.nil_append] at h; rw [← h]; rfl)
          rw [hdigit] at hnone
          cases hnone
      | cons d' ds' =>
          rw [List.cons_append, List.cons_append, List.cons.injEq] at h
          obtain ⟨rfl, htail⟩ := h
          obtain ⟨rfl, heq⟩ := ih (fun c hc => hds c (List.mem_cons_of_mem _ hc))
            (fun c hc => hds' c (List.mem_cons_of_mem _ hc)) htail
          exact ⟨rfl, heq⟩

theorem toDigits_isDigit {n : Nat} {c : Char} (h : c ∈ Nat.toDigits 10 n) :
    c.isDigit = true :=
  Nat.isDigit_of_mem_toDigits (by decide) (by decide) h

theorem toDigits_inj {n m : Nat} (h : Nat.toDigits 10 n = Nat.toDigits 10 m) : n = m := by
  rw [← Nat.ofDigitChars_ten_toDigits (n := n), h, Nat.ofDigitChars_ten_toDigits]

/-- A number begins with a digit or with the minus sign. -/
theorem decimal_head (n : Int) : ∃ c rest, decimal n = c :: rest ∧
    (c.isDigit = true ∨ c = '-') := by
  cases n with
  | ofNat n =>
      cases hds : Nat.toDigits 10 n with
      | nil => exact absurd hds Nat.toDigits_ne_nil
      | cons c rest =>
          exact ⟨c, rest, hds, .inl (toDigits_isDigit (n := n) (by rw [hds]; exact List.mem_cons_self))⟩
  | negSucc n => exact ⟨'-', _, rfl, .inr rfl⟩

theorem decimal_append_inj {n m : Int} {rest rest' : List Char} (hrest : NoDigit rest)
    (hrest' : NoDigit rest') (h : decimal n ++ rest = decimal m ++ rest') :
    n = m ∧ rest = rest' := by
  have hminus : ∀ (k l : Nat) (r r' : List Char),
      Nat.toDigits 10 k ++ r ≠ '-' :: (Nat.toDigits 10 l ++ r') := by
    intro k l r r' heq
    cases hds : Nat.toDigits 10 k with
    | nil => exact absurd hds Nat.toDigits_ne_nil
    | cons c ds =>
        rw [hds, List.cons_append, List.cons.injEq] at heq
        have hdigit := toDigits_isDigit (n := k) (c := c) (by rw [hds]; exact List.mem_cons_self)
        rw [heq.1] at hdigit
        cases hdigit
  cases n with
  | ofNat n =>
      cases m with
      | ofNat m =>
          obtain ⟨hds, heq⟩ := digits_append_inj (fun _ => toDigits_isDigit)
            (fun _ => toDigits_isDigit) hrest hrest' h
          exact ⟨by rw [toDigits_inj hds], heq⟩
      | negSucc m => exact absurd h (hminus n (m + 1) rest rest')
  | negSucc n =>
      cases m with
      | ofNat m => exact absurd h.symm (hminus m (n + 1) rest' rest)
      | negSucc m =>
          have htail : Nat.toDigits 10 (n + 1) ++ rest = Nat.toDigits 10 (m + 1) ++ rest' :=
            (List.cons.inj h).2
          obtain ⟨hds, heq⟩ := digits_append_inj (fun _ => toDigits_isDigit)
            (fun _ => toDigits_isDigit) hrest hrest' htail
          have hnm := toDigits_inj hds
          exact ⟨by rw [Nat.succ.inj hnm], heq⟩

/-! ## Values -/

/-- The first character of a text says what kind of value it is of. -/
inductive Kind | null | bool | num | str | arr | obj
  deriving DecidableEq

def kind : Json → Kind
  | .null => .null
  | .bool _ => .bool
  | .num _ => .num
  | .str _ => .str
  | .arr _ => .arr
  | .obj _ => .obj

def kindOf (c : Char) : Kind :=
  if c = 'n' then .null else if c = 't' ∨ c = 'f' then .bool else if c = '"' then .str
  else if c = '[' then .arr else if c = '{' then .obj else .num

theorem chars_head (x : Json) :
    ∃ c rest, chars x = c :: rest ∧ kindOf c = kind x ∧ c ≠ ']' := by
  cases x with
  | null => exact ⟨'n', _, rfl, rfl, by decide⟩
  | bool b => cases b <;> exact ⟨_, _, rfl, rfl, by decide⟩
  | num n =>
      obtain ⟨c, rest, hchars, hc⟩ := decimal_head n
      refine ⟨c, rest, by rw [chars]; exact hchars, ?_⟩
      -- a digit or the minus sign is none of the other first characters
      have hnot : ∀ d : Char, d.isDigit = false → d ≠ '-' → c ≠ d := by
        intro d hdigit hminus heq
        subst heq
        rcases hc with hc | hc
        · rw [hc] at hdigit
          cases hdigit
        · exact hminus hc
      have hn := hnot 'n' rfl (by decide)
      have ht := hnot 't' rfl (by decide)
      have hf := hnot 'f' rfl (by decide)
      have hquote := hnot '"' rfl (by decide)
      have hbracket := hnot '[' rfl (by decide)
      have hbrace := hnot '{' rfl (by decide)
      exact ⟨by simp [kindOf, kind, hn, ht, hf, hquote, hbracket, hbrace],
        hnot ']' rfl (by decide)⟩
  | str s => exact ⟨'"', _, rfl, rfl, by decide⟩
  | arr xs => cases xs <;> exact ⟨'[', _, by rw [chars], rfl, by decide⟩
  | obj ms =>
      cases ms with
      | nil => exact ⟨'{', _, by rw [chars], rfl, by decide⟩
      | cons m ms => exact ⟨'{', _, by rw [chars], rfl, by decide⟩

theorem chars_append_ne_close {x : Json} {rest rest' : List Char} :
    chars x ++ rest ≠ ']' :: rest' := by
  intro h
  obtain ⟨c, cs, hx, -, hne⟩ := chars_head x
  rw [hx, List.cons_append, List.cons.injEq] at h
  exact hne h.1

theorem kind_eq {x y : Json} {rest rest' : List Char} (h : chars x ++ rest = chars y ++ rest') :
    kind x = kind y := by
  obtain ⟨c, xs, hx, hkind, -⟩ := chars_head x
  obtain ⟨d, ys, hy, hkind', -⟩ := chars_head y
  rw [hx, hy, List.cons_append, List.cons_append, List.cons.injEq] at h
  rw [← hkind, ← hkind', h.1]

theorem noDigit_tailChars (xs : List Json) (rest : List Char) :
    NoDigit (tailChars xs ++ rest) := by
  intro c hc
  cases xs <;> rw [tailChars] at hc <;> cases hc <;> rfl

theorem noDigit_tailMembers (ms : List (String × Json)) (rest : List Char) :
    NoDigit (tailMembers ms ++ rest) := by
  intro c hc
  cases ms <;> rw [tailMembers] at hc <;> cases hc <;> rfl

mutual

theorem chars_append_inj (x y : Json) (rest rest' : List Char) (hrest : NoDigit rest)
    (hrest' : NoDigit rest') (h : chars x ++ rest = chars y ++ rest') :
    x = y ∧ rest = rest' := by
  have hkind := kind_eq h
  match x, y, hkind with
  | .null, .null, _ =>
      simp only [chars, List.cons_append, List.nil_append, List.cons.injEq, true_and] at h
      exact ⟨rfl, h⟩
  | .bool b, .bool b', _ =>
      cases b <;> cases b' <;>
        simp only [chars, List.cons_append, List.nil_append, List.cons.injEq, true_and,
          false_and, Char.reduceEq] at h
      · exact ⟨rfl, h⟩
      · exact ⟨rfl, h⟩
  | .num n, .num m, _ =>
      simp only [chars] at h
      obtain ⟨rfl, heq⟩ := decimal_append_inj hrest hrest' h
      exact ⟨rfl, heq⟩
  | .str s, .str s', _ =>
      simp only [chars] at h
      obtain ⟨rfl, heq⟩ := quoted_append_inj h
      exact ⟨rfl, heq⟩
  | .arr xs, .arr ys, _ =>
      match xs, ys with
      | [], [] =>
          simp only [chars, List.cons_append, List.nil_append, List.cons.injEq, true_and] at h
          exact ⟨rfl, h⟩
      | [], y :: ys =>
          simp only [chars, List.cons_append, List.nil_append, List.append_assoc,
            List.cons.injEq, true_and] at h
          exact absurd h.symm chars_append_ne_close
      | x :: xs, [] =>
          simp only [chars, List.cons_append, List.nil_append, List.append_assoc,
            List.cons.injEq, true_and] at h
          exact absurd h chars_append_ne_close
      | x :: xs, y :: ys =>
          simp only [chars, List.cons_append, List.append_assoc, List.cons.injEq, true_and] at h
          obtain ⟨rfl, htail⟩ := chars_append_inj x y _ _ (noDigit_tailChars xs rest)
            (noDigit_tailChars ys rest') h
          obtain ⟨rfl, heq⟩ := tailChars_append_inj xs ys rest rest' htail
          exact ⟨rfl, heq⟩
  | .obj ms, .obj ms', _ =>
      match ms, ms' with
      | [], [] =>
          simp only [chars, List.cons_append, List.nil_append, List.cons.injEq, true_and] at h
          exact ⟨rfl, h⟩
      | [], (k, v) :: ms => simp [chars, quoted] at h
      | (k, v) :: ms, [] => simp [chars, quoted] at h
      | (k, v) :: ms, (k', v') :: ms' =>
          simp only [chars, List.cons_append, List.append_assoc, List.cons.injEq, true_and] at h
          obtain ⟨rfl, hvalue⟩ := quoted_append_inj h
          rw [List.cons.injEq] at hvalue
          obtain ⟨rfl, htail⟩ := chars_append_inj v v' _ _ (noDigit_tailMembers ms rest)
            (noDigit_tailMembers ms' rest') hvalue.2
          obtain ⟨rfl, heq⟩ := tailMembers_append_inj ms ms' rest rest' htail
          exact ⟨rfl, heq⟩

theorem tailChars_append_inj (xs ys : List Json) (rest rest' : List Char)
    (h : tailChars xs ++ rest = tailChars ys ++ rest') : xs = ys ∧ rest = rest' := by
  match xs, ys with
  | [], [] =>
      simp only [tailChars, List.cons_append, List.nil_append, List.cons.injEq, true_and] at h
      exact ⟨rfl, h⟩
  | [], y :: ys => simp [tailChars] at h
  | x :: xs, [] => simp [tailChars] at h
  | x :: xs, y :: ys =>
      simp only [tailChars, List.cons_append, List.append_assoc, List.cons.injEq, true_and] at h
      obtain ⟨rfl, htail⟩ := chars_append_inj x y _ _ (noDigit_tailChars xs rest)
        (noDigit_tailChars ys rest') h
      obtain ⟨rfl, heq⟩ := tailChars_append_inj xs ys rest rest' htail
      exact ⟨rfl, heq⟩

theorem tailMembers_append_inj (ms ms' : List (String × Json)) (rest rest' : List Char)
    (h : tailMembers ms ++ rest = tailMembers ms' ++ rest') : ms = ms' ∧ rest = rest' := by
  match ms, ms' with
  | [], [] =>
      simp only [tailMembers, List.cons_append, List.nil_append, List.cons.injEq, true_and] at h
      exact ⟨rfl, h⟩
  | [], (k, v) :: ms => simp [tailMembers] at h
  | (k, v) :: ms, [] => simp [tailMembers] at h
  | (k, v) :: ms, (k', v') :: ms' =>
      simp only [tailMembers, List.cons_append, List.append_assoc, List.cons.injEq,
        true_and] at h
      obtain ⟨rfl, hvalue⟩ := quoted_append_inj h
      rw [List.cons.injEq] at hvalue
      obtain ⟨rfl, htail⟩ := chars_append_inj v v' _ _ (noDigit_tailMembers ms rest)
        (noDigit_tailMembers ms' rest') hvalue.2
      obtain ⟨rfl, heq⟩ := tailMembers_append_inj ms ms' rest rest' htail
      exact ⟨rfl, heq⟩

end

/-- Two values of one text are the same. -/
theorem stringify_injective : Function.Injective stringify := by
  intro x y h
  have hchars : chars x ++ [] = chars y ++ [] := by
    rw [List.append_nil, List.append_nil]
    exact String.ofList_injective h
  exact (chars_append_inj x y [] [] nofun nofun hchars).1

/-! ## Members that may be left out -/

theorem name_mem_of_mem_defined {members : List (String × Option Json)} {m : String × Json}
    (h : m ∈ defined members) : m.1 ∈ members.map Prod.fst := by
  unfold defined at h
  obtain ⟨m', hm', hmap⟩ := List.mem_filterMap.mp h
  obtain ⟨v, -, heq⟩ := Option.map_eq_some_iff.mp hmap
  have hname : m.1 = m'.1 := by rw [← heq]
  rw [hname]
  exact List.mem_map_of_mem hm'

/-- With one list of distinct names the members that are there say which are not. -/
theorem defined_inj {members members' : List (String × Option Json)}
    (hnodup : (members.map Prod.fst).Nodup)
    (hnames : members.map Prod.fst = members'.map Prod.fst)
    (h : defined members = defined members') : members = members' := by
  induction members generalizing members' with
  | nil =>
      rw [List.map_nil] at hnames
      rw [List.map_eq_nil_iff.mp hnames.symm]
  | cons m ms ih =>
      cases members' with
      | nil => cases hnames
      | cons m' ms' =>
          obtain ⟨name, v⟩ := m
          obtain ⟨name', v'⟩ := m'
          rw [List.map_cons, List.map_cons] at hnames
          obtain ⟨hname, hrest⟩ := List.cons.inj hnames
          have hname' : name = name' := hname
          subst hname'
          rw [List.map_cons, List.nodup_cons] at hnodup
          obtain ⟨hnotMem, hnodup⟩ := hnodup
          cases v with
          | none =>
              cases v' with
              | none =>
                  have htail : defined ms = defined ms' := h
                  rw [ih hnodup hrest htail]
              | some b =>
                  have htail : defined ms = (name, b) :: defined ms' := h
                  have hmem : (name, b) ∈ defined ms := by
                    rw [htail]
                    exact List.mem_cons_self
                  exact absurd (name_mem_of_mem_defined hmem) hnotMem
          | some a =>
              cases v' with
              | none =>
                  have htail : (name, a) :: defined ms = defined ms' := h
                  have hmem : (name, a) ∈ defined ms' := by
                    rw [← htail]
                    exact List.mem_cons_self
                  exact absurd (name_mem_of_mem_defined hmem) (hrest ▸ hnotMem)
              | some b =>
                  have htail : (name, a) :: defined ms = (name, b) :: defined ms' := h
                  obtain ⟨hhead, htail⟩ := List.cons.inj htail
                  have hvalue : a = b := (Prod.mk.inj hhead).2
                  rw [ih hnodup hrest htail, hvalue]

/-! ## Plain texts -/

/-- A character that stands in a string as it is, in seven bits. -/
def isPlain (c : Char) : Bool := 32 ≤ c.toNat && c.toNat < 127 && c ≠ '"' && c ≠ '\\'

theorem isPlain_bounds {c : Char} (h : isPlain c = true) : 32 ≤ c.toNat ∧ c.toNat < 127 := by
  unfold isPlain at h
  simp only [Bool.and_eq_true, decide_eq_true_eq] at h
  exact h.1.1

theorem escapeChar_plain {c : Char} (h : isPlain c = true) : escapeChar c = [c] := by
  have hbounds := isPlain_bounds h
  have hquote : c ≠ '"' ∧ c ≠ '\\' := by
    unfold isPlain at h
    simp only [Bool.and_eq_true, decide_eq_true_eq] at h
    exact ⟨h.1.2, h.2⟩
  unfold escapeChar
  rw [if_neg hquote.1, if_neg hquote.2, if_neg (by omega), if_neg (by omega),
    if_neg (by omega), if_neg (by omega), if_neg (by omega), if_neg (by omega)]

theorem quoted_plain {s : String} (h : ∀ c ∈ s.toList, isPlain c = true) :
    quoted s = '"' :: (s.toList ++ ['"']) := by
  have hescaped : ∀ cs : List Char, (∀ c ∈ cs, isPlain c = true) →
      cs.flatMap escapeChar = cs := by
    intro cs hcs
    induction cs with
    | nil => rfl
    | cons c cs ih =>
        rw [List.flatMap_cons, escapeChar_plain (hcs c List.mem_cons_self),
          ih fun d hd => hcs d (List.mem_cons_of_mem _ hd)]
        rfl
  unfold quoted
  rw [hescaped _ h]

/-- What an object's text holds besides its names and values. -/
theorem mem_chars_obj {c : Char} {ms : List (String × Json)} (h : c ∈ chars (.obj ms)) :
    c ∈ ['{', '}', ',', ':'] ∨ ∃ m ∈ ms, c ∈ quoted m.1 ∨ c ∈ chars m.2 := by
  have htail : ∀ ms : List (String × Json), c ∈ tailMembers ms →
      c ∈ ['{', '}', ',', ':'] ∨ ∃ m ∈ ms, c ∈ quoted m.1 ∨ c ∈ chars m.2 := by
    intro ms
    induction ms with
    | nil =>
        intro h
        rw [tailMembers, List.mem_singleton] at h
        rw [h]
        exact .inl (by decide)
    | cons m ms ih =>
        intro h
        rw [tailMembers, List.mem_cons, List.mem_append, List.mem_cons, List.mem_append] at h
        rcases h with rfl | hname | rfl | hvalue | hrest
        · exact .inl (by decide)
        · exact .inr ⟨m, List.mem_cons_self, .inl hname⟩
        · exact .inl (by decide)
        · exact .inr ⟨m, List.mem_cons_self, .inr hvalue⟩
        · rcases ih hrest with hmark | ⟨m', hm', hc⟩
          · exact .inl hmark
          · exact .inr ⟨m', List.mem_cons_of_mem _ hm', hc⟩
  cases ms with
  | nil =>
      rw [chars, List.mem_cons, List.mem_singleton] at h
      rcases h with rfl | rfl <;> exact .inl (by decide)
  | cons m ms =>
      -- the first member has a brace where the others have a comma
      rw [chars, List.mem_cons] at h
      rcases h with rfl | hrest
      · exact .inl (by decide)
      · exact htail (m :: ms) (by rw [tailMembers]; exact List.mem_cons_of_mem _ hrest)

theorem length_chars_obj (m : String × Json) (ms : List (String × Json)) :
    (chars (.obj (m :: ms))).length =
      1 + ((m :: ms).map fun m => (quoted m.1).length + (chars m.2).length + 2).sum := by
  have htail : ∀ ms : List (String × Json), (tailMembers ms).length =
      1 + (ms.map fun m => (quoted m.1).length + (chars m.2).length + 2).sum := by
    intro ms
    induction ms with
    | nil => rfl
    | cons m ms ih =>
        rw [tailMembers, List.length_cons, List.length_append, List.length_cons,
          List.length_append, ih, List.map_cons, List.sum_cons]
        omega
  have hfirst : (chars (.obj (m :: ms))).length = (tailMembers (m :: ms)).length := by
    rw [chars, tailMembers, List.length_cons, List.length_cons]
  rw [hfirst, htail]

end Refearn.Support.Json
