import Refearn.Support.Pieces
import Mathlib
/-!
# Lower case

`String.prototype.toLowerCase` maps each character by itself, but for the capital sigma, which
has a form of its own at the end of a word: where a cased letter comes before it and none
after it, case-ignorable characters aside. The tables of Unicode are a parameter, with what
they say about ASCII letters and white space. White space ends the search for a letter, with
one exception: U+FEFF is case-ignorable.
-/

namespace Refearn.Support

/-- `Lowercase_Mapping`, `Cased` and `Case_Ignorable` of the Unicode character database. -/
structure CaseTable where
  lower : Char → List Char
  cased : Char → Bool
  caseIgnorable : Char → Bool
  lower_ne : ∀ c, lower c ≠ []
  lower_upper : ∀ c, c.isUpper = true → lower c = [c.toLower]
  lower_lower : ∀ c, c.isLower = true → lower c = [c]
  lower_space : ∀ c, isSpace c = true → lower c = [c]
  space_lower : ∀ c, isSpace c = false → ∀ d ∈ lower c, isSpace d = false
  cased_alpha : ∀ c, c.isAlpha = true → cased c = true
  cased_space : ∀ c, isSpace c = true → cased c = false
  ignorable_space : ∀ c, isSpace c = true → c ≠ '\uFEFF' → caseIgnorable c = false

namespace CaseTable

variable (t : CaseTable)

/-- A cased letter is next, case-ignorable characters aside. -/
def seesCased : List Char → Bool
  | [] => false
  | c :: cs => t.cased c || (t.caseIgnorable c && seesCased cs)

/-- The lower case of a text, with the text before it in reverse. -/
def lowerFrom (before : List Char) : List Char → List Char
  | [] => []
  | c :: cs =>
      (if c = 'Σ' ∧ t.seesCased before = true ∧ t.seesCased cs = false then ['ς'] else t.lower c) ++
        lowerFrom (c :: before) cs

/-- `String.prototype.toLowerCase`. -/
def toLowerCase (s : String) : String := String.ofList (t.lowerFrom [] s.toList)

variable {t} {cs xs as before rest : List Char} {c sep : Char}

/-! ## Words -/

theorem lowerFrom_ne (h : cs ≠ []) : t.lowerFrom before cs ≠ [] := by
  cases cs with
  | nil => exact absurd rfl h
  | cons c cs =>
      rw [lowerFrom]
      refine List.append_ne_nil_of_left_ne_nil ?_ _
      split_ifs
      · exact List.cons_ne_nil _ _
      · exact t.lower_ne c

theorem isSpace_lowerFrom (h : ∀ c ∈ cs, isSpace c = false) :
    ∀ d ∈ t.lowerFrom before cs, isSpace d = false := by
  induction cs generalizing before with
  | nil => exact nofun
  | cons c cs ih =>
      intro d hd
      rw [lowerFrom] at hd
      rcases List.mem_append.mp hd with hd | hd
      · split_ifs at hd
        · rw [List.mem_singleton.mp hd]
          decide
        · exact t.space_lower c (h c List.mem_cons_self) d hd
      · exact ih (fun e he => h e (List.mem_cons_of_mem _ he)) d hd

theorem seesCased_append (hsep : isSpace sep = true) (hne : sep ≠ '\uFEFF') (xs as : List Char) :
    t.seesCased (xs ++ sep :: as) = t.seesCased xs := by
  induction xs with
  | nil => simp [seesCased, t.cased_space sep hsep, t.ignorable_space sep hsep hne]
  | cons x xs ih => rw [List.cons_append, seesCased, seesCased, ih]

theorem lowerFrom_before (hsep : isSpace sep = true) (hne : sep ≠ '\uFEFF') :
    t.lowerFrom (before ++ sep :: rest) cs = t.lowerFrom before cs := by
  induction cs generalizing before with
  | nil => rfl
  | cons c cs ih =>
      rw [lowerFrom, lowerFrom, seesCased_append hsep hne, ← List.cons_append, ih]

theorem lowerFrom_of_notMem (h : 'Σ' ∉ cs) : t.lowerFrom before cs = cs.flatMap t.lower := by
  induction cs generalizing before with
  | nil => rfl
  | cons c cs ih =>
      have hc : c ≠ 'Σ' := fun heq => h (heq ▸ List.mem_cons_self)
      rw [lowerFrom, if_neg fun h' => hc h'.1, List.flatMap_cons,
        ih fun hmem => h (List.mem_cons_of_mem _ hmem)]

theorem lowerFrom_cons_space (hsep : isSpace sep = true) :
    t.lowerFrom before (sep :: as) = sep :: t.lowerFrom (sep :: before) as := by
  have hsigma : sep ≠ 'Σ' := by
    rintro rfl
    exact absurd hsep (by decide)
  rw [lowerFrom, if_neg fun h => hsigma h.1, t.lower_space sep hsep]
  rfl

theorem lowerFrom_append (hsep : isSpace sep = true) (hne : sep ≠ '\uFEFF') (as : List Char) :
    t.lowerFrom before (xs ++ sep :: as) = t.lowerFrom before xs ++ sep :: t.lowerFrom [] as := by
  induction xs generalizing before with
  | nil =>
      have hforget : t.lowerFrom ([] ++ sep :: before) as = t.lowerFrom [] as :=
        lowerFrom_before hsep hne
      rw [List.nil_append] at hforget
      rw [List.nil_append, lowerFrom_cons_space hsep, hforget]
      rfl
  | cons x xs ih =>
      rw [List.cons_append, lowerFrom, lowerFrom, ih, seesCased_append hsep hne, List.append_assoc]

/-- No capital sigma looks for its letter beyond the white space of its word. -/
def Plain (cs : List Char) : Prop := '\uFEFF' ∉ cs ∨ 'Σ' ∉ cs

theorem lowerFrom_plain (h : Plain (xs ++ sep :: as)) (hsep : isSpace sep = true) :
    t.lowerFrom [] (xs ++ sep :: as) = t.lowerFrom [] xs ++ sep :: t.lowerFrom [] as := by
  rcases h with h | h
  · have hne : sep ≠ '\uFEFF' := fun heq =>
      h (heq ▸ List.mem_append_right _ List.mem_cons_self)
    exact lowerFrom_append hsep hne as
  · have hxs : 'Σ' ∉ xs := fun hmem => h (List.mem_append_left _ hmem)
    have has : 'Σ' ∉ as := fun hmem => h (List.mem_append_right _ (List.mem_cons_of_mem _ hmem))
    rw [lowerFrom_of_notMem h, lowerFrom_of_notMem hxs, lowerFrom_of_notMem has,
      List.flatMap_append, List.flatMap_cons, t.lower_space sep hsep]
    rfl

theorem Plain.parts (h : Plain (xs ++ sep :: as)) : Plain xs ∧ Plain as := by
  simp only [Plain, List.mem_append, List.mem_cons, not_or] at h ⊢
  rcases h with h | h
  · exact ⟨.inl h.1, .inl h.2.2⟩
  · exact ⟨.inr h.1, .inr h.2.2⟩

/-- The words of a text in lower case are its words in lower case. -/
theorem pieces_lowerFrom (h : Plain cs) :
    pieces (t.lowerFrom [] cs) = (pieces cs).map (t.lowerFrom []) := by
  induction cs using text_induction with
  | hword cs hcs =>
      by_cases hne : cs = []
      · rw [hne, lowerFrom, pieces_nil]
        rfl
      · rw [pieces_of_forall hcs hne, pieces_of_forall (isSpace_lowerFrom hcs) (lowerFrom_ne hne)]
        rfl
  | happend xs sep as hsep ihx iha =>
      obtain ⟨hx, ha⟩ := h.parts
      rw [lowerFrom_plain h hsep, pieces_append_cons _ _ hsep, pieces_append_cons _ _ hsep, ihx hx,
        iha ha, List.map_append]

/-! ## ASCII letters -/

theorem lower_toLower (c : Char) : t.lower c.toLower = t.lower c := by
  by_cases hc : c.isUpper = true
  · have hlower : c.toLower.isLower = true := by
      rw [Char.isLower_toLower_eq_isAlpha, Char.isAlpha, hc, Bool.true_or]
    rw [t.lower_lower _ hlower, t.lower_upper c hc]
  · rw [Char.toLower_eq_of_not_isUpper hc]

theorem cased_toLower (c : Char) (h : c.isUpper = true) :
    t.cased c.toLower = true ∧ t.cased c = true := by
  have halpha : c.isAlpha = true := by rw [Char.isAlpha, h, Bool.true_or]
  exact ⟨t.cased_alpha _ (by rwa [Char.isAlpha_toLower_eq_isAlpha]), t.cased_alpha c halpha⟩

theorem toLower_eq_sigma (c : Char) : c.toLower = 'Σ' ↔ c = 'Σ' := by
  by_cases hc : c.isUpper = true
  · have hlower : c.toLower.isLower = true := by
      rw [Char.isLower_toLower_eq_isAlpha, Char.isAlpha, hc, Bool.true_or]
    refine iff_of_false (fun h => ?_) (fun h => ?_)
    · rw [h] at hlower
      exact absurd hlower (by decide)
    · rw [h] at hc
      exact absurd hc (by decide)
  · rw [Char.toLower_eq_of_not_isUpper hc]

theorem seesCased_map (cs : List Char) : t.seesCased (cs.map Char.toLower) = t.seesCased cs := by
  induction cs with
  | nil => rfl
  | cons c cs ih =>
      rw [List.map_cons, seesCased, seesCased, ih]
      by_cases hc : c.isUpper = true
      · obtain ⟨hlower, hupper⟩ := cased_toLower (t := t) c hc
        rw [hlower, hupper]
        rfl
      · rw [Char.toLower_eq_of_not_isUpper hc]

theorem lowerFrom_map (before cs : List Char) :
    t.lowerFrom (before.map Char.toLower) (cs.map Char.toLower) = t.lowerFrom before cs := by
  induction cs generalizing before with
  | nil => rfl
  | cons c cs ih =>
      rw [List.map_cons, lowerFrom, lowerFrom, ← List.map_cons, ih, seesCased_map, seesCased_map,
        lower_toLower]
      simp only [toLower_eq_sigma]

/-- The case of ASCII letters is lost. -/
theorem toLowerCase_congr {a b : String}
    (h : a.toList.map Char.toLower = b.toList.map Char.toLower) :
    t.toLowerCase a = t.toLowerCase b := by
  have hmap := lowerFrom_map (t := t) []
  unfold toLowerCase
  rw [← hmap a.toList, ← hmap b.toList, h]

end CaseTable

end Refearn.Support
