import Mathlib.Data.List.Basic
/-!
# Line endings

A line ends with CR LF, CR or LF. Texts that differ in nothing else are the same once
their line endings are normalised.
-/

namespace Refearn.Support

/-- `replace(/\r\n/g, '\n')`. -/
def replaceCrLf : List Char → List Char
  | [] => []
  | [c] => [c]
  | c :: d :: cs =>
      if c = '\r' ∧ d = '\n' then '\n' :: replaceCrLf cs else c :: replaceCrLf (d :: cs)

/-- `replace(/\r\n/g, '\n').replace(/\r/g, '\n')`. -/
def normalizeLines (cs : List Char) : List Char :=
  (replaceCrLf cs).map fun c => if c = '\r' then '\n' else c

theorem replaceCrLf_cons {c : Char} {cs : List Char}
    (h : c = '\r' → cs.head? ≠ some '\n') : replaceCrLf (c :: cs) = c :: replaceCrLf cs := by
  cases cs with
  | nil => rfl
  | cons d cs =>
      rw [replaceCrLf, if_neg]
      rintro ⟨hc, rfl⟩
      exact h hc rfl

@[simp] theorem normalizeLines_nil : normalizeLines [] = [] := rfl

@[simp] theorem normalizeLines_crlf (cs : List Char) :
    normalizeLines ('\r' :: '\n' :: cs) = '\n' :: normalizeLines cs := by
  simp [normalizeLines, replaceCrLf]

theorem normalizeLines_cr {cs : List Char} (h : cs.head? ≠ some '\n') :
    normalizeLines ('\r' :: cs) = '\n' :: normalizeLines cs := by
  rw [normalizeLines, replaceCrLf_cons fun _ => h]
  rfl

theorem normalizeLines_cons {c : Char} (h : c ≠ '\r') (cs : List Char) :
    normalizeLines (c :: cs) = c :: normalizeLines cs := by
  rw [normalizeLines, replaceCrLf_cons fun hc => absurd hc h, List.map_cons, if_neg h]
  rfl

theorem normalizeLines_step {c : Char} {cs : List Char}
    (h : c = '\r' → cs.head? ≠ some '\n') :
    normalizeLines (c :: cs) = (if c = '\r' then '\n' else c) :: normalizeLines cs := by
  rw [normalizeLines, replaceCrLf_cons h, List.map_cons]
  rfl

/-- Text before which nothing changes. -/
theorem normalizeLines_append {as : List Char} (h : '\r' ∉ as) (bs : List Char) :
    normalizeLines (as ++ bs) = as ++ normalizeLines bs := by
  induction as with
  | nil => rfl
  | cons a as ih =>
      have ha : a ≠ '\r' := fun heq => h (heq ▸ List.mem_cons_self ..)
      have has : '\r' ∉ as := fun hmem => h (List.mem_cons_of_mem _ hmem)
      rw [List.cons_append, normalizeLines_cons ha, ih has, List.cons_append]

theorem normalizeLines_of_notMem {cs : List Char} (h : '\r' ∉ cs) :
    normalizeLines cs = cs := by
  have happend := normalizeLines_append h []
  rwa [List.append_nil, normalizeLines_nil, List.append_nil] at happend

theorem mem_replaceCrLf {cs : List Char} {c : Char} (hc : c ∈ cs) (hne : c ≠ '\r') :
    c ∈ replaceCrLf cs := by
  induction cs using replaceCrLf.induct with
  | case1 => exact hc
  | case2 d => exact hc
  | case3 d e cs hpair ih =>
      rw [replaceCrLf, if_pos hpair]
      obtain ⟨rfl, rfl⟩ := hpair
      rcases List.mem_cons.mp hc with rfl | hc
      · exact absurd rfl hne
      · exact (List.mem_cons.mp hc).elim (fun h => h ▸ List.mem_cons_self ..)
          fun h => List.mem_cons_of_mem _ (ih h)
  | case4 d e cs hpair ih =>
      rw [replaceCrLf, if_neg hpair]
      rcases List.mem_cons.mp hc with rfl | hc
      · exact List.mem_cons_self ..
      · exact List.mem_cons_of_mem _ (ih hc)

/-- Nothing but carriage returns is lost. -/
theorem mem_normalizeLines {cs : List Char} {c : Char} (hc : c ∈ cs) (hne : c ≠ '\r') :
    c ∈ normalizeLines cs :=
  List.mem_map.mpr ⟨c, mem_replaceCrLf hc hne, if_neg hne⟩

/-! ## Pieces of a text -/

/-- Whatever comes after `as`, it becomes `as'` in normal form. -/
def NormalizesTo (as as' : List Char) : Prop :=
  ∀ rest, normalizeLines (as ++ rest) = as' ++ normalizeLines rest

theorem normalizesTo_nil : NormalizesTo [] [] := fun _ => rfl

theorem normalizesTo_self {as : List Char} (h : '\r' ∉ as) : NormalizesTo as as :=
  normalizeLines_append h

theorem normalizesTo_append {as as' bs bs' : List Char} (ha : NormalizesTo as as')
    (hb : NormalizesTo bs bs') : NormalizesTo (as ++ bs) (as' ++ bs') := by
  intro rest
  rw [List.append_assoc, ha, hb, List.append_assoc]

theorem normalizesTo_intercalate {α : Type} {x : Char} (hx : x ≠ '\r') (f g : α → List Char)
    {items : List α} (h : ∀ item ∈ items, NormalizesTo (f item) (g item)) :
    NormalizesTo ([x].intercalate (items.map f)) ([x].intercalate (items.map g)) := by
  have hx' : NormalizesTo [x] [x] :=
    normalizesTo_self fun hmem => hx (List.mem_singleton.mp hmem).symm
  induction items with
  | nil => exact normalizesTo_nil
  | cons item items ih =>
      have hfirst := h item (List.mem_cons_self ..)
      cases items with
      | nil => simpa using hfirst
      | cons next items =>
          have hrest := ih fun i hi => h i (List.mem_cons_of_mem _ hi)
          simp only [List.map_cons, List.intercalate_cons_cons] at hrest ⊢
          exact normalizesTo_append (normalizesTo_append hfirst hx') hrest

/-! ## Texts that differ in line endings only -/

/-- The texts of one line ending that a reader takes as such: a CR before a LF is not one
by itself. -/
inductive LineEnd : List Char → List Char → Prop
  | crlf (cs) : LineEnd ['\r', '\n'] cs
  | cr {cs} : cs.head? ≠ some '\n' → LineEnd ['\r'] cs
  | lf (cs) : LineEnd ['\n'] cs

/-- The same characters and the same line endings up to how these are written. -/
inductive SameLines : List Char → List Char → Prop
  | nil : SameLines [] []
  | char {c as bs} : c ≠ '\r' → c ≠ '\n' → SameLines as bs → SameLines (c :: as) (c :: bs)
  | line {e f as bs} : LineEnd e as → LineEnd f bs → SameLines as bs →
      SameLines (e ++ as) (f ++ bs)

theorem normalizeLines_lineEnd {e cs : List Char} (h : LineEnd e cs) :
    normalizeLines (e ++ cs) = '\n' :: normalizeLines cs := by
  cases h with
  | crlf => exact normalizeLines_crlf cs
  | cr hhead => exact normalizeLines_cr hhead
  | lf => exact normalizeLines_cons (by decide) cs

theorem normalizeLines_eq_of_sameLines {as bs : List Char} (h : SameLines as bs) :
    normalizeLines as = normalizeLines bs := by
  induction h with
  | nil => rfl
  | char hcr _ _ ih => rw [normalizeLines_cons hcr, normalizeLines_cons hcr, ih]
  | line he hf _ ih => rw [normalizeLines_lineEnd he, normalizeLines_lineEnd hf, ih]

end Refearn.Support
