import Mathlib.Data.List.Basic
/-!
# Patterns of fixed length

A text fits a pattern if it has one character of each class, in order.
-/

namespace Refearn.Support

/-- The pattern of one class of characters at each place. -/
def fits : List (Char → Bool) → List Char → Bool
  | [], [] => true
  | p :: ps, c :: cs => p c && fits ps cs
  | _, _ => false

def isHexDigit (c : Char) : Bool := "0123456789abcdef".toList.contains c

def isDash (c : Char) : Bool := c = '-'

theorem length_of_fits {ps : List (Char → Bool)} {cs : List Char} (h : fits ps cs = true) :
    cs.length = ps.length := by
  induction ps generalizing cs with
  | nil =>
      cases cs with
      | nil => rfl
      | cons c cs => cases h
  | cons p ps ih =>
      cases cs with
      | nil => cases h
      | cons c cs =>
          rw [fits, Bool.and_eq_true] at h
          rw [List.length_cons, List.length_cons, ih h.2]

theorem exists_of_fits {ps : List (Char → Bool)} {cs : List Char} (h : fits ps cs = true)
    {c : Char} (hc : c ∈ cs) : ∃ p ∈ ps, p c = true := by
  induction ps generalizing cs with
  | nil =>
      cases cs with
      | nil => cases hc
      | cons c cs => cases h
  | cons p ps ih =>
      cases cs with
      | nil => cases hc
      | cons d cs =>
          rw [fits, Bool.and_eq_true] at h
          rcases List.mem_cons.mp hc with rfl | hrest
          · exact ⟨p, List.mem_cons_self, h.1⟩
          · obtain ⟨q, hq, hqc⟩ := ih h.2 hrest
            exact ⟨q, List.mem_cons_of_mem _ hq, hqc⟩

theorem fits_replicate {p : Char → Bool} {cs : List Char} (h : ∀ c ∈ cs, p c = true) :
    fits (.replicate cs.length p) cs = true := by
  induction cs with
  | nil => rfl
  | cons c cs ih =>
      rw [List.length_cons, List.replicate_succ, fits, Bool.and_eq_true]
      exact ⟨h c List.mem_cons_self, ih fun d hd => h d (List.mem_cons_of_mem _ hd)⟩

theorem fits_append {ps qs : List (Char → Bool)} {cs ds : List Char}
    (h : cs.length = ps.length) : fits (ps ++ qs) (cs ++ ds) = (fits ps cs && fits qs ds) := by
  induction ps generalizing cs with
  | nil =>
      rw [List.length_eq_zero_iff.mp h]
      rfl
  | cons p ps ih =>
      cases cs with
      | nil => cases h
      | cons c cs =>
          rw [List.cons_append, List.cons_append, fits, fits, ih (Nat.succ.inj h), Bool.and_assoc]

/-! ## Separators -/

/-- Two texts have dashes at the same places. -/
def Aligned (cs ds : List Char) : Prop := List.Forall₂ (fun c d => c = '-' ↔ d = '-') cs ds

/-- A class is that of the dash or does without it. -/
def Separates (p : Char → Bool) : Prop := p = isDash ∨ p '-' = false

/-- Texts are aligned if the patterns that they fit have their dashes at the same places. -/
theorem aligned_of_fits {ps qs : List (Char → Bool)} (hplaces : ps.map (· '-') = qs.map (· '-'))
    (hps : ∀ p ∈ ps, Separates p) (hqs : ∀ q ∈ qs, Separates q) {cs ds : List Char}
    (hcs : fits ps cs = true) (hds : fits qs ds = true) : Aligned cs ds := by
  have hdash : ∀ {p : Char → Bool} {c : Char}, Separates p → p c = true →
      (c = '-' ↔ p '-' = true) := by
    rintro p c (rfl | hp) hc
    · exact iff_of_true (of_decide_eq_true hc) (decide_eq_true rfl)
    · refine iff_of_false (fun h => ?_) (by rw [hp]; exact Bool.false_ne_true)
      rw [h, hp] at hc
      cases hc
  induction ps generalizing qs cs ds with
  | nil =>
      have hqs : qs = [] := List.map_eq_nil_iff.mp hplaces.symm
      rw [hqs] at hds
      rw [List.length_eq_zero_iff.mp (length_of_fits hcs),
        List.length_eq_zero_iff.mp (length_of_fits hds)]
      exact List.Forall₂.nil
  | cons p ps ih =>
      cases qs with
      | nil => cases hplaces
      | cons q qs =>
          obtain ⟨hplace, hplaces⟩ := List.cons.inj hplaces
          cases cs with
          | nil => cases hcs
          | cons c cs =>
              cases ds with
              | nil => cases hds
              | cons d ds =>
                  rw [fits, Bool.and_eq_true] at hcs hds
                  refine List.Forall₂.cons ?_ (ih hplaces
                    (fun p hp => hps p (List.mem_cons_of_mem _ hp))
                    (fun q hq => hqs q (List.mem_cons_of_mem _ hq)) hcs.2 hds.2)
                  have hsame : p '-' = q '-' := hplace
                  rw [hdash (hps p List.mem_cons_self) hcs.1,
                    hdash (hqs q List.mem_cons_self) hds.1, hsame]

theorem Aligned.length_filter {cs ds : List Char} (h : Aligned cs ds) :
    (cs.filter (· ≠ '-')).length = (ds.filter (· ≠ '-')).length := by
  induction h with
  | nil => rfl
  | @cons c d cs ds hcd _ ih =>
      by_cases hc : c = '-'
      · have hd : d = '-' := hcd.mp hc
        rw [hc, hd]
        exact ih
      · have hd : d ≠ '-' := fun hd => hc (hcd.mpr hd)
        rw [List.filter_cons_of_pos (by simpa using hc),
          List.filter_cons_of_pos (by simpa using hd), List.length_cons, List.length_cons, ih]

/-- Aligned texts differ where they do without the dashes. -/
theorem Aligned.eq_of_filter {cs ds : List Char} (h : Aligned cs ds)
    (heq : cs.filter (· ≠ '-') = ds.filter (· ≠ '-')) : cs = ds := by
  induction h with
  | nil => rfl
  | @cons c d cs ds hcd _ ih =>
      by_cases hc : c = '-'
      · have hd : d = '-' := hcd.mp hc
        rw [hc, hd] at heq ⊢
        rw [ih heq]
      · have hd : d ≠ '-' := fun hd => hc (hcd.mpr hd)
        rw [List.filter_cons_of_pos (by simpa using hc),
          List.filter_cons_of_pos (by simpa using hd)] at heq
        obtain ⟨hfirst, hrest⟩ := List.cons.inj heq
        rw [hfirst, ih hrest]

theorem Aligned.lt_of_filter {cs ds : List Char} (h : Aligned cs ds)
    (hlt : cs.filter (· ≠ '-') < ds.filter (· ≠ '-')) : cs < ds := by
  induction h with
  | nil => exact hlt
  | @cons c d cs ds hcd _ ih =>
      by_cases hc : c = '-'
      · have hd : d = '-' := hcd.mp hc
        rw [hc, hd] at hlt ⊢
        exact List.cons_lt_cons_iff.mpr (.inr ⟨rfl, ih hlt⟩)
      · have hd : d ≠ '-' := fun hd => hc (hcd.mpr hd)
        rw [List.filter_cons_of_pos (by simpa using hc),
          List.filter_cons_of_pos (by simpa using hd)] at hlt
        rcases List.cons_lt_cons_iff.mp hlt with hfirst | ⟨rfl, hrest⟩
        · exact List.cons_lt_cons_iff.mpr (.inl hfirst)
        · exact List.cons_lt_cons_iff.mpr (.inr ⟨rfl, ih hrest⟩)

/-! ## Grouped digits -/

/-- 32 digits in groups of 8, 4, 4, 4 and 12, the first of the third and of the fourth group
of classes of their own. -/
def groupedPattern (digit version variant : Char → Bool) : List (Char → Bool) :=
  .replicate 8 digit ++ isDash :: (.replicate 4 digit ++
    isDash :: version :: (.replicate 3 digit ++
      isDash :: variant :: (.replicate 3 digit ++
        isDash :: .replicate 12 digit)))

section Grouped

variable {digit version variant : Char → Bool}

theorem separates_groupedPattern (hdigit : digit '-' = false) (hversion : version '-' = false)
    (hvariant : variant '-' = false) : ∀ p ∈ groupedPattern digit version variant, Separates p := by
  intro p hp
  simp only [groupedPattern, List.mem_append, List.mem_replicate, List.mem_cons] at hp
  rcases hp with ⟨-, rfl⟩ | rfl | ⟨-, rfl⟩ | rfl | rfl | ⟨-, rfl⟩ | rfl | rfl | ⟨-, rfl⟩ | rfl |
    ⟨-, rfl⟩
  all_goals first | exact .inl rfl | exact .inr ‹_›

theorem places_groupedPattern {digit' version' variant' : Char → Bool}
    (hdigit : digit '-' = digit' '-') (hversion : version '-' = version' '-')
    (hvariant : variant '-' = variant' '-') :
    (groupedPattern digit version variant).map (· '-') =
      (groupedPattern digit' version' variant').map (· '-') := by
  simp only [groupedPattern, List.map_append, List.map_replicate, List.map_cons, hdigit, hversion,
    hvariant]

/-- Grouped digits are checked at two places. -/
theorem fits_groupedPattern {ds : List Char} (hlength : ds.length = 32)
    (hdigit : ∀ c ∈ ds, digit c = true) {v w : Char} (hv : ds[12]? = some v)
    (hw : ds[16]? = some w) :
    fits (groupedPattern digit version variant) (ds.take 8 ++ '-' :: (ds.drop 8).take 4 ++
      '-' :: (ds.drop 12).take 4 ++ '-' :: (ds.drop 16).take 4 ++ '-' :: ds.drop 20) =
      (version v && variant w) := by
  have hpiece : ∀ {cs : List Char} {n : Nat}, cs.length = n → cs ⊆ ds →
      fits (.replicate n digit) cs = true := by
    rintro cs _ rfl hsub
    exact fits_replicate fun c hc => hdigit c (hsub hc)
  have hfront : ∀ {cs es : List Char} {n : Nat} {qs : List (Char → Bool)}, cs.length = n →
      cs ⊆ ds → fits (.replicate n digit ++ qs) (cs ++ es) = fits qs es := by
    intro cs es n qs hn hsub
    rw [fits_append (by rw [hn, List.length_replicate]), hpiece hn hsub, Bool.true_and]
  have hcut : ∀ i n, (ds.drop i).take n ⊆ ds := fun i n _ hc =>
    List.mem_of_mem_drop (List.mem_of_mem_take hc)
  have htwelve : (ds.drop 12).take 4 = v :: (ds.drop 13).take 3 := by
    rw [List.drop_eq_getElem?_toList_append, hv]
    rfl
  have hsixteen : (ds.drop 16).take 4 = w :: (ds.drop 17).take 3 := by
    rw [List.drop_eq_getElem?_toList_append, hw]
    rfl
  have hdash : ∀ {qs : List (Char → Bool)} {es : List Char},
      fits (isDash :: qs) ('-' :: es) = fits qs es := fun {_ _} => rfl
  rw [htwelve, hsixteen]
  simp only [List.append_assoc, List.cons_append]
  unfold groupedPattern
  rw [hfront (by simp [hlength]) (List.take_subset 8 ds), hdash,
    hfront (by simp [hlength]) (hcut 8 4), hdash, fits,
    hfront (by simp [hlength]) (hcut 13 3), hdash, fits,
    hfront (by simp [hlength]) (hcut 17 3), hdash,
    hpiece (by simp [hlength]) (List.drop_subset 20 ds), Bool.and_true]

end Grouped

end Refearn.Support
