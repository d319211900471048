import Refearn.Support.JsText
import Mathlib.Data.List.Basic
/-!
# Joining and cutting texts
-/

/-!
## Joined texts
-/

namespace Refearn.Support

/-- A text of two runs of pieces. -/
theorem intercalate_append {α : Type} (sep : List α) {as bs : List (List α)} (has : as ≠ [])
    (hbs : bs ≠ []) :
    sep.intercalate (as ++ bs) = sep.intercalate as ++ (sep ++ sep.intercalate bs) := by
  induction as with
  | nil => exact absurd rfl has
  | cons a as ih =>
      cases as with
      | nil =>
          rw [List.singleton_append, List.intercalate_cons_of_ne_nil hbs,
            List.intercalate_singleton, List.append_assoc]
      | cons a' as =>
          rw [List.cons_append, List.intercalate_cons_of_ne_nil (by simp),
            ih (List.cons_ne_nil _ _), List.intercalate_cons_of_ne_nil (List.cons_ne_nil _ _)]
          simp only [List.append_assoc]

theorem intercalate_ne_nil {α : Type} (sep : List α) {pieces : List (List α)}
    (hne : pieces ≠ []) (hpieces : ∀ piece ∈ pieces, piece ≠ []) :
    sep.intercalate pieces ≠ [] := by
  cases pieces with
  | nil => exact absurd rfl hne
  | cons piece pieces =>
      have hpiece : piece ≠ [] := hpieces piece (List.mem_cons_self ..)
      by_cases hrest : pieces = []
      · rwa [hrest, List.intercalate_singleton]
      · rw [List.intercalate_cons_of_ne_nil hrest, List.append_assoc]
        exact List.append_ne_nil_of_left_ne_nil hpiece _

end Refearn.Support

/-!
## The words of a text

Trimming a text and putting one blank for every run of white space leaves its words, with a
blank between each two of them. Where white space stands does not matter otherwise: the words
of two texts put together around a blank are the words of the one and then those of the other.
-/

namespace Refearn.Support

/-- What stands between white space. -/
def pieces (cs : List Char) : List (List Char) := (cs.splitOnP isSpace).filter fun w => !w.isEmpty

/-- Pieces with one blank between each two. -/
def joined (ws : List (List Char)) : List Char := [' '].intercalate ws

section Pieces

variable {cs xs as : List Char} {c sep : Char}

theorem pieces_nil : pieces [] = [] := by simp [pieces]

theorem pieces_append_cons (xs as : List Char) (h : isSpace sep = true) :
    pieces (xs ++ sep :: as) = pieces xs ++ pieces as := by
  unfold pieces
  rw [List.splitOnP_append_cons xs as h, List.filter_append]

theorem pieces_cons_space (as : List Char) (h : isSpace sep = true) :
    pieces (sep :: as) = pieces as := by
  have happend := pieces_append_cons [] as h
  rwa [List.nil_append, pieces_nil, List.nil_append] at happend

/-- A text without white space is one word. -/
theorem pieces_of_forall (h : ∀ c ∈ cs, isSpace c = false) (hne : cs ≠ []) : pieces cs = [cs] := by
  unfold pieces
  rw [List.splitOnP_eq_singleton h]
  exact List.filter_cons_of_pos (by simpa using hne)

theorem pieces_eq_nil_of_forall (h : ∀ c ∈ cs, isSpace c = true) : pieces cs = [] := by
  induction cs with
  | nil => exact pieces_nil
  | cons c cs ih =>
      rw [pieces_cons_space cs (h c List.mem_cons_self)]
      exact ih fun d hd => h d (List.mem_cons_of_mem _ hd)

/-- A character before a text without white space in front joins its first word. -/
theorem pieces_cons_cons (cs : List Char) {d : Char} (hc : isSpace c = false)
    (hd : isSpace d = false) :
    ∃ w ws, pieces (d :: cs) = w :: ws ∧ pieces (c :: d :: cs) = (c :: w) :: ws := by
  have hsplit := List.splitOnP_cons_eq_if_modifyHead (p := isSpace) d cs
  rw [hd, if_neg Bool.false_ne_true] at hsplit
  obtain ⟨w, ws, hws⟩ := List.exists_cons_of_ne_nil (List.splitOnP_ne_nil isSpace cs)
  rw [hws] at hsplit
  have hcons := List.splitOnP_cons_eq_if_modifyHead (p := isSpace) c (d :: cs)
  rw [hc, if_neg Bool.false_ne_true, hsplit] at hcons
  refine ⟨d :: w, ws.filter fun w => !w.isEmpty, ?_, ?_⟩
  · unfold pieces
    rw [hsplit]
    rfl
  · unfold pieces
    rw [hcons]
    rfl

theorem pieces_cons_of_space {d : Char} (hc : isSpace c = false) (hd : isSpace d = true) :
    pieces (c :: d :: cs) = [c] :: pieces cs := by
  have happend := pieces_append_cons [c] cs hd
  have hone : pieces [c] = [[c]] :=
    pieces_of_forall (by simpa using hc) (List.cons_ne_nil _ _)
  rw [hone] at happend
  exact happend

/-- Every text is without white space or put together around some. -/
theorem text_induction {P : List Char → Prop} (hword : ∀ cs, (∀ c ∈ cs, isSpace c = false) → P cs)
    (happend : ∀ xs sep as, isSpace sep = true → P xs → P as → P (xs ++ sep :: as)) :
    ∀ cs, P cs := by
  intro cs
  induction hlength : cs.length using Nat.strong_induction_on generalizing cs with
  | _ n ih =>
      by_cases hspace : ∃ sep ∈ cs, isSpace sep = true
      · obtain ⟨sep, hmem, hsep⟩ := hspace
        obtain ⟨xs, as, rfl⟩ := List.append_of_mem hmem
        rw [List.length_append, List.length_cons] at hlength
        exact happend xs sep as hsep (ih xs.length (by omega) xs rfl)
          (ih as.length (by omega) as rfl)
      · refine hword cs fun c hc => ?_
        exact Bool.eq_false_iff.mpr fun h => hspace ⟨c, hc, h⟩

theorem mem_pieces {w : List Char} (h : w ∈ pieces cs) : w ≠ [] ∧ ∀ c ∈ w, isSpace c = false := by
  induction cs using text_induction with
  | hword cs hcs =>
      by_cases hne : cs = []
      · rw [hne, pieces_nil] at h
        cases h
      · rw [pieces_of_forall hcs hne] at h
        rw [List.mem_singleton.mp h]
        exact ⟨hne, hcs⟩
  | happend xs sep as hsep ihx iha =>
      rw [pieces_append_cons xs as hsep] at h
      exact (List.mem_append.mp h).elim ihx iha

theorem pieces_eq_nil_iff : pieces cs = [] ↔ ∀ c ∈ cs, isSpace c = true := by
  refine ⟨fun h => ?_, pieces_eq_nil_of_forall⟩
  induction cs using text_induction with
  | hword cs hcs =>
      by_cases hne : cs = []
      · rw [hne]
        exact nofun
      · rw [pieces_of_forall hcs hne] at h
        cases h
  | happend xs sep as hsep ihx iha =>
      rw [pieces_append_cons xs as hsep, List.append_eq_nil_iff] at h
      simp only [List.mem_append, List.mem_cons]
      rintro c (hc | rfl | hc)
      · exact ihx h.1 c hc
      · exact hsep
      · exact iha h.2 c hc

end Pieces

/-! ## Trimming and collapsing -/

section Collapse

variable {cs : List Char} {ws : List (List Char)} {c : Char}

theorem joined_cons_cons (w v : List Char) (ws : List (List Char)) :
    joined (w :: v :: ws) = w ++ ' ' :: joined (v :: ws) := by
  unfold joined
  rw [List.intercalate_cons_cons, List.append_assoc]
  rfl

theorem joined_singleton (w : List Char) : joined [w] = w := List.intercalate_singleton

theorem joined_cons_head (c : Char) (w : List Char) (ws : List (List Char)) :
    joined ((c :: w) :: ws) = c :: joined (w :: ws) := by
  cases ws with
  | nil => rw [joined_singleton, joined_singleton]
  | cons v ws => rw [joined_cons_cons, joined_cons_cons, List.cons_append]

/-- Collapsing a text without white space at its end joins its words. -/
theorem collapseSpaces_eq (hlast : ∀ d ∈ cs.getLast?, isSpace d = false) :
    collapseSpaces true cs = joined (pieces cs) ∧
      ((∀ d ∈ cs.head?, isSpace d = false) → collapseSpaces false cs = joined (pieces cs)) := by
  induction cs with
  | nil => simp [collapseSpaces, pieces_nil, joined]
  | cons c cs ih =>
      cases cs with
      | nil =>
          have hc : isSpace c = false := hlast c rfl
          rw [pieces_of_forall (by simpa using hc) (List.cons_ne_nil _ _), joined_singleton]
          simp [collapseSpaces, hc]
      | cons d cs =>
          obtain ⟨ihTrue, ihFalse⟩ := ih hlast
          by_cases hc : isSpace c = true
          · rw [pieces_cons_space _ hc]
            refine ⟨?_, fun h => absurd hc (by rw [h c rfl]; exact Bool.false_ne_true)⟩
            rw [← ihTrue, collapseSpaces, if_pos hc, if_pos rfl]
          · rw [Bool.not_eq_true] at hc
            have hnext : collapseSpaces false (d :: cs) = ' ' :: joined (pieces cs) ∧
                isSpace d = true ∨ collapseSpaces false (d :: cs) = joined (pieces (d :: cs)) ∧
                isSpace d = false := by
              by_cases hd : isSpace d = true
              · rw [pieces_cons_space _ hd, collapseSpaces, if_pos hd, if_pos rfl] at ihTrue
                refine .inl ⟨?_, hd⟩
                rw [collapseSpaces, if_pos hd, if_neg Bool.false_ne_true, ihTrue]
              · rw [Bool.not_eq_true] at hd
                exact .inr ⟨ihFalse (by simpa using hd), hd⟩
            have hwhole : c :: collapseSpaces false (d :: cs) = joined (pieces (c :: d :: cs)) := by
              rcases hnext with ⟨hnext, hd⟩ | ⟨hnext, hd⟩
              · have hne : pieces cs ≠ [] := by
                  intro hnil
                  have hall := pieces_eq_nil_iff.mp ((pieces_cons_space cs hd).trans hnil)
                  have hend := hlast _ (List.getLast?_eq_some_getLast (List.cons_ne_nil c (d :: cs)))
                  rw [List.getLast_cons (List.cons_ne_nil d cs), hall _ (List.getLast_mem _)] at hend
                  cases hend
                obtain ⟨w, ws, hws⟩ := List.exists_cons_of_ne_nil hne
                rw [hnext, pieces_cons_of_space hc hd, hws, joined_cons_cons]
                rfl
              · obtain ⟨w, ws, hws, hcons⟩ := pieces_cons_cons cs hc hd
                rw [hnext, hcons, hws, joined_cons_head]
            have hfirst : ∀ inRun, collapseSpaces inRun (c :: d :: cs) =
                c :: collapseSpaces false (d :: cs) := by
              intro inRun
              rw [collapseSpaces, if_neg (by rw [hc]; exact Bool.false_ne_true)]
            rw [hfirst, hfirst, hwhole]
            exact ⟨rfl, fun _ => rfl⟩

theorem pieces_dropWhile (cs : List Char) : pieces (cs.dropWhile isSpace) = pieces cs := by
  induction cs with
  | nil => rfl
  | cons c cs ih =>
      by_cases hc : isSpace c = true
      · rw [List.dropWhile_cons_of_pos hc, ih, pieces_cons_space cs hc]
      · rw [List.dropWhile_cons_of_neg hc]

theorem pieces_append_of_forall {as : List Char} (h : ∀ c ∈ as, isSpace c = true)
    (xs : List Char) : pieces (xs ++ as) = pieces xs := by
  cases as with
  | nil => rw [List.append_nil]
  | cons a as =>
      rw [pieces_append_cons xs as (h a List.mem_cons_self),
        pieces_eq_nil_of_forall fun c hc => h c (List.mem_cons_of_mem _ hc), List.append_nil]

theorem pieces_trimChars (cs : List Char) : pieces (trimChars cs) = pieces cs := by
  have hsplit : trimChars cs ++ ((cs.dropWhile isSpace).reverse.takeWhile isSpace).reverse =
      cs.dropWhile isSpace := by
    unfold trimChars
    rw [← List.reverse_append, List.takeWhile_append_dropWhile, List.reverse_reverse]
  have hspaces : ∀ c ∈ ((cs.dropWhile isSpace).reverse.takeWhile isSpace).reverse,
      isSpace c = true := fun c hc => List.mem_takeWhile_imp (List.mem_reverse.mp hc)
  rw [← pieces_append_of_forall hspaces, hsplit, pieces_dropWhile]

theorem head?_trimChars (cs : List Char) : ∀ d ∈ (trimChars cs).head?, isSpace d = false := by
  intro d hd
  have hsplit : trimChars cs <+: cs.dropWhile isSpace := by
    unfold trimChars
    have hsuffix := List.dropWhile_suffix (l := (cs.dropWhile isSpace).reverse) isSpace
    rw [← List.reverse_reverse (cs.dropWhile isSpace)]
    exact List.reverse_prefix.mpr (by simpa using hsuffix)
  obtain ⟨rest, hrest⟩ := hsplit
  have hhead : (cs.dropWhile isSpace).head? = some d := by
    rw [← hrest, List.head?_append, Option.mem_def.mp hd]
    rfl
  have hnot := List.head?_dropWhile_not isSpace cs
  rw [hhead] at hnot
  exact Bool.eq_false_iff.mpr (by simpa using hnot)

theorem getLast?_trimChars (cs : List Char) : ∀ d ∈ (trimChars cs).getLast?, isSpace d = false := by
  intro d hd
  have hnot := List.head?_dropWhile_not isSpace (cs.dropWhile isSpace).reverse
  unfold trimChars at hd
  rw [List.getLast?_reverse, Option.mem_def] at hd
  rw [hd] at hnot
  exact Bool.eq_false_iff.mpr (by simpa using hnot)

/-- What trimming and collapsing leave of a text. -/
theorem collapseSpaces_trimChars (cs : List Char) :
    collapseSpaces false (trimChars cs) = joined (pieces cs) := by
  rw [(collapseSpaces_eq (getLast?_trimChars cs)).2 (head?_trimChars cs), pieces_trimChars]

/-- The words of words with a blank between each two of them are these words. -/
theorem words_joined (h : ∀ w ∈ ws, w ≠ [] ∧ ∀ c ∈ w, isSpace c = false) :
    words (String.ofList (joined ws)) = ws.map String.ofList := by
  unfold words joined
  rw [String.toList_ofList]
  by_cases hws : ws = []
  · rw [hws]
    rfl
  · have hblank : ∀ w ∈ ws, ' ' ∉ w := fun w hw hmem => absurd ((h w hw).2 ' ' hmem) (by decide)
    rw [List.splitOn_intercalate ' ' hblank hws, List.filter_eq_self.mpr]
    intro w hw
    simpa using (h w hw).1

end Collapse

end Refearn.Support
