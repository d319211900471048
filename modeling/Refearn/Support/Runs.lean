import Mathlib.Logic.Basic
/-!
# Runs and histories
-/

/-!
## Histories

A history grows at its end. That every asking event has an answer later on is kept by each event
that asks nothing, and an answer settles everything before it.
-/

namespace Refearn.Support

variable {α : Type} {history before after : List α} {x e : α}

/-- An event of a longer history is the new one or one of the old. -/
theorem concat_eq_append_cons :
    history ++ [e] = before ++ x :: after ↔
      (history = before ∧ e = x ∧ after = []) ∨
        ∃ rest, after = rest ++ [e] ∧ history = before ++ x :: rest := by
  constructor
  · intro h
    rcases List.eq_nil_or_concat after with rfl | ⟨rest, u, hconcat⟩
    · obtain ⟨hinit, hlast⟩ := List.append_inj' h rfl
      exact .inl ⟨hinit, List.singleton_inj.mp hlast, rfl⟩
    · rw [List.concat_eq_append] at hconcat
      have h' : history ++ [e] = (before ++ x :: rest) ++ [u] := by
        rw [h, hconcat, List.append_assoc, List.cons_append]
      obtain ⟨hinit, hlast⟩ := List.append_inj' h' rfl
      exact .inr ⟨rest, by rw [hconcat, List.singleton_inj.mp hlast], hinit⟩
  · rintro (⟨rfl, rfl, rfl⟩ | ⟨rest, rfl, rfl⟩)
    · rfl
    · rw [List.append_assoc, List.cons_append]

/-- Every event that asks is followed by one that answers. -/
def Answered (asks answers : α → Prop) (history : List α) : Prop :=
  ∀ before x after, history = before ++ x :: after → asks x → ∃ y ∈ after, answers y

variable {asks asks' answers answers' : α → Prop}

theorem Answered.nil : Answered asks answers [] := by
  intro before x after h
  cases before <;> cases h

theorem Answered.imp (h : Answered asks answers history) (hasks : ∀ x, asks' x → asks x)
    (hanswers : ∀ y, answers y → answers' y) : Answered asks' answers' history := by
  intro before x after heq hx
  obtain ⟨y, hy, hanswer⟩ := h before x after heq (hasks x hx)
  exact ⟨y, hy, hanswers y hanswer⟩

theorem Answered.concat (h : Answered asks answers history) (he : ¬ asks e) :
    Answered asks answers (history ++ [e]) := by
  intro before x after heq hx
  rcases concat_eq_append_cons.mp heq with ⟨_, rfl, _⟩ | ⟨rest, rfl, hrest⟩
  · exact absurd hx he
  · obtain ⟨y, hy, hanswer⟩ := h before x rest hrest hx
    exact ⟨y, List.mem_append_left _ hy, hanswer⟩

/-- An answer settles all that has been asked. -/
theorem Answered.of_answer (hanswer : answers e) (he : ¬ asks e) :
    Answered asks answers (history ++ [e]) := by
  intro before x after heq hx
  rcases concat_eq_append_cons.mp heq with ⟨_, rfl, _⟩ | ⟨rest, rfl, _⟩
  · exact absurd hx he
  · exact ⟨e, List.mem_append_right _ (List.mem_singleton_self e), hanswer⟩

end Refearn.Support

/-!
## Runs of a system that takes one step after another

Every interleaving of transactions that a serializing database commits is a list
of steps. An invariant is proved of one step and holds of every run; a relation
between an earlier and a later state is proved of one step and holds between the
two ends of every run.
-/

namespace Refearn.Support

variable {σ α : Type}

/-- The state after a list of steps. -/
def run (step : α → σ → σ) (as : List α) (s : σ) : σ :=
  as.foldl (fun s a => step a s) s

section Run

variable (step : α → σ → σ)

@[simp] theorem run_nil (s : σ) : run step [] s = s := rfl

@[simp] theorem run_cons (a : α) (as : List α) (s : σ) :
    run step (a :: as) s = run step as (step a s) := rfl

theorem run_append (as bs : List α) (s : σ) :
    run step (as ++ bs) s = run step bs (run step as s) :=
  List.foldl_append ..

end Run

/-- The states that some run from an initial state passes through. -/
inductive Reachable (init : σ → Prop) (step : α → σ → σ) : σ → Prop
  | start {s : σ} (h : init s) : Reachable init step s
  | next {s : σ} (a : α) (h : Reachable init step s) : Reachable init step (step a s)

variable {init : σ → Prop} {step : α → σ → σ}

theorem Reachable.run {s : σ} (h : Reachable init step s) (as : List α) :
    Reachable init step (run step as s) := by
  induction as generalizing s with
  | nil => exact h
  | cons a as ih => exact ih (h.next a)

/-- What holds initially and is kept by each step holds in every reachable state. -/
theorem Reachable.invariant {I : σ → Prop} (hinit : ∀ s, init s → I s)
    (hstep : ∀ a s, I s → I (step a s)) {s : σ} (h : Reachable init step s) : I s := by
  induction h with
  | start h => exact hinit _ h
  | next a _ ih => exact hstep a _ ih

/-- What each allowed step keeps, a run of allowed steps keeps. -/
theorem run_invariant {I : σ → Prop} {allowed : α → σ → Prop}
    (hstep : ∀ a s, Reachable init step s → allowed a s → I s → I (step a s)) {s : σ}
    (hs : Reachable init step s) {as : List α}
    (hallowed : ∀ (pre : List α) (a : α) (post : List α), as = pre ++ a :: post →
      allowed a (Support.run step pre s)) (h : I s) : I (Support.run step as s) := by
  induction as generalizing s with
  | nil => exact h
  | cons a as ih =>
      refine ih (hs.next a) ?_ (hstep a s hs (hallowed [] a as rfl) h)
      intro pre b post heq
      exact hallowed (a :: pre) b post (by rw [heq]; rfl)

/-- A reflexive and transitive relation that each step establishes holds between
the ends of every run. -/
theorem run_relation {R : σ → σ → Prop} (hrefl : ∀ s, R s s)
    (htrans : ∀ s t u, R s t → R t u → R s u)
    (hstep : ∀ a s, Reachable init step s → R s (step a s)) {s : σ}
    (hs : Reachable init step s) (as : List α) : R s (Support.run step as s) := by
  induction as generalizing s with
  | nil => exact hrefl s
  | cons a as ih => exact htrans _ _ _ (hstep a s hs) (ih (hs.next a))

/-- A run that is long enough reaches the goal `Q`, if each allowed step reaches it or
shortens the wait for it, and none leaves it again. -/
theorem run_reaches {P Q : σ → Prop} (allowed : α → Prop) {wait : σ → Nat}
    (hpos : ∀ s, P s → 0 < wait s)
    (hstep : ∀ a s, allowed a → P s → Q (step a s) ∨ (P (step a s) ∧ wait (step a s) < wait s))
    (hkeep : ∀ a s, allowed a → Q s → Q (step a s)) {as : List α}
    (hallowed : ∀ a ∈ as, allowed a) {s : σ} (hp : P s) (hwait : wait s ≤ as.length) :
    Q (Support.run step as s) := by
  -- once the goal is reached the rest of the run keeps it
  have hstay : ∀ as : List α, (∀ a ∈ as, allowed a) → ∀ s, Q s → Q (Support.run step as s) := by
    intro as
    induction as with
    | nil => exact fun _ _ h => h
    | cons a as ih =>
        intro hall s h
        exact ih (fun b hb => hall b (List.mem_cons_of_mem _ hb)) _
          (hkeep a s (hall a List.mem_cons_self) h)
  induction as generalizing s with
  | nil =>
      have hlt := hpos s hp
      have hzero : wait s ≤ 0 := hwait
      omega
  | cons a as ih =>
      have hrest : ∀ b ∈ as, allowed b := fun b hb => hallowed b (List.mem_cons_of_mem _ hb)
      rcases hstep a s (hallowed a List.mem_cons_self) hp with hq | ⟨hp', hlt⟩
      · exact hstay as hrest _ hq
      · have hlen : wait s ≤ as.length + 1 := hwait
        have hlen' : wait (step a s) ≤ as.length := by omega
        exact ih hrest hp' hlen'

/-! ## Runs under a condition -/

section Throughout

variable {step : α → σ → σ} {allowed : α → σ → Prop}

/-- Each step of a run is allowed in the state that it meets. -/
def Throughout (step : α → σ → σ) (allowed : α → σ → Prop) : List α → σ → Prop
  | [], _ => True
  | a :: as, s => allowed a s ∧ Throughout step allowed as (step a s)

instance decidableThroughout [∀ a s, Decidable (allowed a s)] :
    ∀ (as : List α) (s : σ), Decidable (Throughout step allowed as s)
  | [], _ => .isTrue trivial
  | a :: as, s =>
      haveI : Decidable (Throughout step allowed as (step a s)) := decidableThroughout as (step a s)
      inferInstanceAs (Decidable (allowed a s ∧ Throughout step allowed as (step a s)))

/-- The first half of a run of allowed steps is one. -/
theorem Throughout.left {as bs : List α} {s : σ} (h : Throughout step allowed (as ++ bs) s) :
    Throughout step allowed as s := by
  induction as generalizing s with
  | nil => trivial
  | cons a as ih => exact ⟨h.1, ih h.2⟩

/-- And so is the second half, from where the first one ends. -/
theorem Throughout.right {as bs : List α} {s : σ} (h : Throughout step allowed (as ++ bs) s) :
    Throughout step allowed bs (run step as s) := by
  induction as generalizing s with
  | nil => exact h
  | cons a as ih => exact ih h.2

/-- What each allowed step keeps holds at the end of a run of allowed steps. -/
theorem Throughout.invariant {I : σ → Prop}
    (hstep : ∀ a s, allowed a s → I s → I (step a s)) {as : List α} {s : σ}
    (h : Throughout step allowed as s) (hs : I s) : I (run step as s) := by
  induction as generalizing s with
  | nil => exact hs
  | cons a as ih => exact ih h.2 (hstep a s h.1 hs)

/-- A reflexive and transitive relation that each allowed step establishes holds between the
ends of a run of allowed steps. -/
theorem Throughout.relation {R : σ → σ → Prop} (hrefl : ∀ s, R s s)
    (htrans : ∀ s t u, R s t → R t u → R s u) (hstep : ∀ a s, allowed a s → R s (step a s))
    {as : List α} {s : σ} (h : Throughout step allowed as s) : R s (run step as s) := by
  induction as generalizing s with
  | nil => exact hrefl s
  | cons a as ih => exact htrans _ _ _ (hstep a s h.1) (ih h.2)

end Throughout

end Refearn.Support
