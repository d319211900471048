import Mathlib.Data.List.Infix
/-!
# Patterns of LIKE

`%` stands for any text, `_` for any character, and a backslash for the character after it.
A text without these three is matched literally. Of every other pattern there is a text that it
matches although the pattern does not occur in it.
-/

namespace Refearn.Support

def isWild (c : Char) : Bool := c = '%' || c = '_' || c = '\\'

def like : List Char → List Char → Bool
  | [], text => text.isEmpty
  | '%' :: pattern, text => text.tails.any (like pattern)
  | '_' :: _, [] => false
  | '_' :: pattern, _ :: text => like pattern text
  | ['\\'], _ => false
  | '\\' :: _ :: _, [] => false
  | '\\' :: e :: pattern, c :: text => e = c && like pattern text
  | _ :: _, [] => false
  | p :: pattern, c :: text => p = c && like pattern text

/-- A text that holds the pattern somewhere. -/
def containing (pattern : List Char) : List Char := '%' :: (pattern ++ ['%'])

section Literal

variable {pattern text : List Char} {c : Char}

attribute [local simp] like

theorem like_percent : like ('%' :: pattern) text = true ↔ ∃ rest, rest <:+ text ∧ like pattern rest := by
  rw [like, List.any_eq_true]
  simp only [List.mem_tails]

theorem like_nil_any (text : List Char) : like ['%'] text = true :=
  like_percent.mpr ⟨[], List.nil_suffix, rfl⟩

theorem like_cons_literal (h : isWild c = false) (d : Char) :
    like (c :: pattern) (d :: text) = (decide (c = d) && like pattern text) := by
  simp only [isWild, Bool.or_eq_false_iff, decide_eq_false_iff_not] at h
  rw [like] <;> grind

theorem like_cons_nil (h : isWild c = false) : like (c :: pattern) [] = false := by
  simp only [isWild, Bool.or_eq_false_iff, decide_eq_false_iff_not] at h
  rw [like] <;> grind

theorem like_literal_append (h : ∀ c ∈ pattern, isWild c = false) :
    like (pattern ++ ['%']) text = true ↔ pattern <+: text := by
  induction pattern generalizing text with
  | nil => simp
  | cons p pattern ih =>
      have hp := h p List.mem_cons_self
      have hrest : ∀ c ∈ pattern, isWild c = false := fun c hc => h c (List.mem_cons_of_mem _ hc)
      cases text with
      | nil => simp [like_cons_nil hp]
      | cons d text =>
          rw [List.cons_append, like_cons_literal hp, List.cons_prefix_cons, Bool.and_eq_true,
            decide_eq_true_eq, ih hrest]

/-- A literal pattern is looked for as it stands. -/
theorem like_containing (h : ∀ c ∈ pattern, isWild c = false) :
    like (containing pattern) text = true ↔ pattern <:+: text := by
  unfold containing
  rw [like_percent, List.infix_iff_prefix_suffix]
  simp only [like_literal_append h, and_comm]

end Literal

/-! ## What a pattern with wild characters finds -/

section Sample

variable (x : Char)

/-- The shortest text with `x` for every wild card; a backslash at the end escapes the `%` that is
put after the pattern. -/
def sample : List Char → List Char
  | [] => []
  | ['\\'] => ['%']
  | '\\' :: e :: pattern => e :: sample pattern
  | '%' :: pattern => x :: sample pattern
  | '_' :: pattern => x :: sample pattern
  | c :: pattern => c :: sample pattern

variable {x} {pattern : List Char} {c : Char}

attribute [local simp] sample

theorem sample_cons_literal (h : isWild c = false) :
    sample x (c :: pattern) = c :: sample x pattern := by
  simp only [isWild, Bool.or_eq_false_iff, decide_eq_false_iff_not] at h
  rw [sample] <;> grind

/-- What is left after the wild characters in their places. -/
theorem literal_of_cases (hlast : c = '\\' → pattern = [] → False)
    (hescape : ∀ e rest, c = '\\' → pattern = e :: rest → False) (hpercent : c = '%' → False)
    (hunder : c = '_' → False) : isWild c = false := by
  simp only [isWild, Bool.or_eq_false_iff, decide_eq_false_iff_not]
  refine ⟨⟨hpercent, hunder⟩, ?_⟩
  rintro rfl
  cases pattern with
  | nil => exact hlast rfl rfl
  | cons e rest => exact hescape e rest rfl rfl

theorem like_sample_append (pattern : List Char) :
    like (pattern ++ ['%']) (sample x pattern) = true := by
  fun_induction sample x pattern with
  | case1 => exact like_nil_any []
  | case2 => rfl
  | case3 e pattern ih => simpa [like] using ih
  | case4 pattern ih =>
      exact like_percent.mpr ⟨sample x pattern, List.suffix_cons x _, ih⟩
  | case5 pattern ih => simpa [like] using ih
  | case6 c pattern hlast hescape hpercent hunder ih =>
      have hc := literal_of_cases hlast hescape hpercent hunder
      rw [List.cons_append, like_cons_literal hc, ih]
      simp

/-- A pattern finds its sample. -/
theorem like_containing_sample (pattern : List Char) :
    like (containing pattern) (sample x pattern) = true :=
  like_percent.mpr ⟨sample x pattern, List.suffix_rfl, like_sample_append pattern⟩

theorem length_sample_le (pattern : List Char) : (sample x pattern).length ≤ pattern.length := by
  fun_induction sample x pattern <;> simp_all
  omega

theorem not_wild_of_sample_eq (hx : isWild x = false) (pattern : List Char)
    (h : sample x pattern = pattern) : ∀ c ∈ pattern, isWild c = false := by
  fun_induction sample x pattern with
  | case1 => exact nofun
  | case2 => cases h
  | case3 e pattern ih =>
      -- an escape makes the sample shorter
      have hlength := congrArg List.length h
      have hle := length_sample_le (x := x) pattern
      simp only [List.length_cons] at hlength
      omega
  | case4 pattern ih =>
      injection h with hhead
      rw [hhead] at hx
      exact absurd hx (by decide)
  | case5 pattern ih =>
      injection h with hhead
      rw [hhead] at hx
      exact absurd hx (by decide)
  | case6 c pattern hlast hescape hpercent hunder ih =>
      injection h with _ htail
      intro d hd
      rcases List.mem_cons.mp hd with rfl | hd
      · exact literal_of_cases hlast hescape hpercent hunder
      · exact ih htail d hd

/-- A sample in which its pattern occurs comes from a literal pattern. -/
theorem not_wild_of_infix_sample (hx : isWild x = false) (h : pattern <:+: sample x pattern) :
    ∀ c ∈ pattern, isWild c = false := by
  have hlength := length_sample_le (x := x) pattern
  exact not_wild_of_sample_eq hx pattern (h.eq_of_length_le hlength).symm

/-- A mapping that neither makes nor removes wild characters maps samples to samples. -/
theorem map_sample {f : Char → Char} (hwild : ∀ c, isWild c = true → f c = c)
    (hliteral : ∀ c, isWild (f c) = isWild c) (pattern : List Char) :
    (sample x pattern).map f = sample (f x) (pattern.map f) := by
  fun_induction sample x pattern with
  | case1 => rfl
  | case2 =>
      rw [List.map_singleton, List.map_singleton, hwild '\\' rfl, hwild '%' rfl]
      rfl
  | case3 e pattern ih =>
      rw [List.map_cons, List.map_cons, List.map_cons, ih, hwild '\\' rfl]
      rfl
  | case4 pattern ih =>
      rw [List.map_cons, List.map_cons, ih, hwild '%' rfl]
      rfl
  | case5 pattern ih =>
      rw [List.map_cons, List.map_cons, ih, hwild '_' rfl]
      rfl
  | case6 c pattern hlast hescape hpercent hunder ih =>
      have hc := literal_of_cases hlast hescape hpercent hunder
      rw [List.map_cons, List.map_cons, ih, sample_cons_literal (by rw [hliteral, hc])]

end Sample

end Refearn.Support
