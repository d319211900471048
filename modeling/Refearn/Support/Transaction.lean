import Mathlib.Data.List.Forall2
import Mathlib.Logic.Basic
/-!
# Transactions
-/

/-!
## Transactions that commit or roll back

A transaction reads and rewrites a state and either commits a value or raises,
in which case its caller sees the state it started from. The lemmas turn a
committed `do` block into the chain of its committed steps, so a proof can take
a translated procedure apart without unfolding the monad.
-/

namespace Refearn.Support

/-- A computation over states `σ` that commits a value or raises an `ε`. -/
abbrev Transaction (σ ε : Type) := StateT σ (Except ε)

namespace Transaction

variable {σ ε α β : Type}

/-- `m`, started in `s`, commits the value `a` and the state `s'`. -/
def Commits (m : Transaction σ ε α) (s : σ) (a : α) (s' : σ) : Prop :=
  m.run s = .ok (a, s')

/-- `m`, started in `s`, raises `e`. -/
def Raises (m : Transaction σ ε α) (s : σ) (e : ε) : Prop :=
  m.run s = .error e

/-- The state a caller sees after `m`: a raised error rolls everything back. -/
def commit (m : Transaction σ ε α) (s : σ) : σ :=
  match m.run s with
  | .ok (_, s') => s'
  | .error _ => s

theorem commits_or_raises (m : Transaction σ ε α) (s : σ) :
    (∃ a s', m.Commits s a s') ∨ ∃ e, m.Raises s e := by
  unfold Commits Raises
  cases m.run s with
  | ok r => exact .inl ⟨r.1, r.2, rfl⟩
  | error e => exact .inr ⟨e, rfl⟩

theorem Commits.commit_eq {m : Transaction σ ε α} {s s' : σ} {a : α}
    (h : m.Commits s a s') : m.commit s = s' := by
  unfold Commits at h
  simp [commit, h]

theorem Raises.commit_eq {m : Transaction σ ε α} {s : σ} {e : ε}
    (h : m.Raises s e) : m.commit s = s := by
  unfold Raises at h
  simp [commit, h]

theorem commit_cases (m : Transaction σ ε α) (s : σ) :
    m.commit s = s ∨ ∃ a, m.Commits s a (m.commit s) := by
  rcases commits_or_raises m s with ⟨a, s', h⟩ | ⟨e, h⟩
  · exact .inr ⟨a, by rwa [h.commit_eq]⟩
  · exact .inl h.commit_eq

theorem Commits.unique {m : Transaction σ ε α} {s s₁ s₂ : σ} {a₁ a₂ : α}
    (h₁ : m.Commits s a₁ s₁) (h₂ : m.Commits s a₂ s₂) : a₁ = a₂ ∧ s₁ = s₂ := by
  unfold Commits at h₁ h₂
  rw [h₁] at h₂
  cases h₂
  exact ⟨rfl, rfl⟩

theorem Commits.not_raises {m : Transaction σ ε α} {s s' : σ} {a : α} {e : ε}
    (h : m.Commits s a s') : ¬m.Raises s e := by
  unfold Commits at h
  unfold Raises
  rw [h]
  exact nofun

/-! ## One rule for each construct of a `do` block -/

@[simp] theorem commits_pure (a b : α) (s s' : σ) :
    Commits (pure a : Transaction σ ε α) s b s' ↔ a = b ∧ s = s' := by
  unfold Commits
  rw [StateT.run_pure]
  exact ⟨fun h => by cases h; exact ⟨rfl, rfl⟩, fun ⟨h, h'⟩ => by rw [h, h']; rfl⟩

@[simp] theorem commits_bind (m : Transaction σ ε α) (f : α → Transaction σ ε β)
    (s s'' : σ) (b : β) :
    Commits (m >>= f) s b s'' ↔
      ∃ a s', m.Commits s a s' ∧ (f a).Commits s' b s'' := by
  unfold Commits
  rw [StateT.run_bind]
  cases hm : m.run s with
  | ok r =>
      constructor
      · exact fun h => ⟨r.1, r.2, rfl, h⟩
      · rintro ⟨a, s', ha, h⟩
        cases ha
        exact h
  | error e => exact ⟨nofun, fun ⟨_, _, ha, _⟩ => nomatch ha⟩

@[simp] theorem commits_get (s t s' : σ) :
    Commits (get : Transaction σ ε σ) s t s' ↔ s = t ∧ s = s' := by
  unfold Commits
  rw [StateT.run_get]
  exact ⟨fun h => by cases h; exact ⟨rfl, rfl⟩, fun ⟨h, h'⟩ => by rw [← h, ← h']; rfl⟩

@[simp] theorem commits_modify (f : σ → σ) (s s' : σ) (u : PUnit) :
    Commits (modify f : Transaction σ ε PUnit) s u s' ↔ f s = s' := by
  unfold Commits
  rw [StateT.run_modify]
  exact ⟨fun h => by cases h; rfl, fun h => by rw [h]; rfl⟩

@[simp] theorem commits_set (t s s' : σ) (u : PUnit) :
    Commits (set t : Transaction σ ε PUnit) s u s' ↔ t = s' := by
  unfold Commits
  rw [StateT.run_set]
  exact ⟨fun h => by cases h; rfl, fun h => by rw [h]; rfl⟩

@[simp] theorem commits_throw (e : ε) (s s' : σ) (a : α) :
    ¬Commits (throw e : Transaction σ ε α) s a s' := by
  unfold Commits
  exact nofun

@[simp] theorem commits_ite (c : Prop) [Decidable c] (m n : Transaction σ ε α)
    (s s' : σ) (a : α) :
    Commits (if c then m else n) s a s' ↔
      (c ∧ m.Commits s a s') ∨ (¬c ∧ n.Commits s a s') := by
  split_ifs with h <;> simp [h]

@[simp] theorem raises_pure (a : α) (s : σ) (e : ε) :
    ¬Raises (pure a : Transaction σ ε α) s e := by
  unfold Raises
  exact nofun

@[simp] theorem raises_bind (m : Transaction σ ε α) (f : α → Transaction σ ε β)
    (s : σ) (e : ε) :
    Raises (m >>= f) s e ↔
      m.Raises s e ∨ ∃ a s', m.Commits s a s' ∧ (f a).Raises s' e := by
  unfold Raises Commits
  rw [StateT.run_bind]
  cases hm : m.run s with
  | ok r =>
      constructor
      · exact fun h => .inr ⟨r.1, r.2, rfl, h⟩
      · rintro (h | ⟨a, s', ha, h⟩)
        · cases h
        · cases ha
          exact h
  | error e' =>
      have hbind : (Except.error e' >>= fun r : α × σ => (f r.1).run r.2) =
          .error e' := rfl
      rw [hbind]
      constructor
      · intro h
        cases h
        exact .inl rfl
      · rintro (h | ⟨_, _, ha, _⟩)
        · cases h
          rfl
        · cases ha

@[simp] theorem raises_get (s : σ) (e : ε) :
    ¬Raises (get : Transaction σ ε σ) s e := by
  unfold Raises
  exact nofun

@[simp] theorem raises_modify (f : σ → σ) (s : σ) (e : ε) :
    ¬Raises (modify f : Transaction σ ε PUnit) s e := by
  unfold Raises
  exact nofun

@[simp] theorem raises_throw (e e' : ε) (s : σ) :
    Raises (throw e : Transaction σ ε α) s e' ↔ e = e' := by
  unfold Raises
  exact ⟨fun h => by cases h; rfl, fun h => by rw [h]; rfl⟩

@[simp] theorem raises_ite (c : Prop) [Decidable c] (m n : Transaction σ ε α)
    (s : σ) (e : ε) :
    Raises (if c then m else n) s e ↔ (c ∧ m.Raises s e) ∨ (¬c ∧ n.Raises s e) := by
  split_ifs with h <;> simp [h]

/-- Raise `e` unless `c` holds. -/
def require (c : Prop) [Decidable c] (e : ε) : Transaction σ ε PUnit :=
  if c then pure ⟨⟩ else throw e

@[simp] theorem commits_require (c : Prop) [Decidable c] (e : ε) (s s' : σ)
    (u : PUnit) :
    Commits (require c e : Transaction σ ε PUnit) s u s' ↔ c ∧ s = s' := by
  unfold require
  split_ifs with h <;> simp [h]

@[simp] theorem raises_require (c : Prop) [Decidable c] (e e' : ε) (s : σ) :
    Raises (require c e : Transaction σ ε PUnit) s e' ↔ ¬c ∧ e = e' := by
  unfold require
  split_ifs with h <;> simp [h]

/-- Run a computation that does not touch the state. -/
def fromExcept : Except ε α → Transaction σ ε α
  | .ok a => pure a
  | .error e => throw e

@[simp] theorem commits_fromExcept (x : Except ε α) (s s' : σ) (a : α) :
    Commits (fromExcept x : Transaction σ ε α) s a s' ↔ x = .ok a ∧ s = s' := by
  cases x <;> simp [fromExcept]

@[simp] theorem raises_fromExcept (x : Except ε α) (s : σ) (e : ε) :
    Raises (fromExcept x : Transaction σ ε α) s e ↔ x = .error e := by
  cases x <;> simp [fromExcept]

/-- The value of an optional read, or the error that its absence raises. -/
def orThrow (x : Option α) (e : ε) : Transaction σ ε α :=
  match x with
  | some a => pure a
  | none => throw e

@[simp] theorem commits_orThrow (x : Option α) (e : ε) (s s' : σ) (a : α) :
    Commits (orThrow x e : Transaction σ ε α) s a s' ↔ x = some a ∧ s = s' := by
  cases x <;> simp [orThrow]

@[simp] theorem raises_orThrow (x : Option α) (e e' : ε) (s : σ) :
    Raises (orThrow x e : Transaction σ ε α) s e' ↔ x = none ∧ e = e' := by
  cases x <;> simp [orThrow]

/-- Running a transaction to its end shows that it commits, and what. -/
theorem exists_commits_of_run {m : Transaction σ ε α} {s : σ} {p : α → Bool}
    (h : (m.run s).toOption.any (fun r => p r.1) = true) :
    ∃ a, m.Commits s a (m.commit s) ∧ p a = true := by
  rcases commits_or_raises m s with ⟨a, s', hc⟩ | ⟨e, hr⟩
  · refine ⟨a, by rwa [hc.commit_eq], ?_⟩
    unfold Commits at hc
    rw [hc] at h
    exact h
  · unfold Raises at hr
    rw [hr] at h
    cases h

/-! ## Computations without a state -/

theorem bind_eq_ok {x : Except ε α} {f : α → Except ε β} {b : β} :
    (x >>= f) = .ok b ↔ ∃ a, x = .ok a ∧ f a = .ok b := by
  cases x with
  | error e => exact ⟨nofun, fun ⟨_, h, _⟩ => nomatch h⟩
  | ok a =>
      constructor
      · exact fun h => ⟨a, rfl, h⟩
      · rintro ⟨_, h, hf⟩
        cases h
        exact hf

theorem map_eq_ok {x : Except ε α} {f : α → β} {b : β} :
    x.map f = .ok b ↔ ∃ a, x = .ok a ∧ f a = b := by
  cases x with
  | error e => exact ⟨nofun, fun ⟨_, h, _⟩ => nomatch h⟩
  | ok a =>
      constructor
      · intro h
        cases h
        exact ⟨a, rfl, rfl⟩
      · rintro ⟨_, h, rfl⟩
        cases h
        rfl

/-- A list is mapped when each element is. -/
theorem mapM_eq_ok {f : α → Except ε β} {as : List α} {bs : List β} :
    as.mapM f = .ok bs ↔ List.Forall₂ (fun a b => f a = .ok b) as bs := by
  induction as generalizing bs with
  | nil =>
      rw [List.mapM_nil, List.forall₂_nil_left_iff]
      exact ⟨fun h => by cases h; rfl, fun h => by rw [h]; rfl⟩
  | cons a as ih =>
      rw [List.mapM_cons, List.forall₂_cons_left_iff]
      constructor
      · intro h
        cases ha : f a with
        | error e => rw [ha] at h; cases h
        | ok b =>
            cases has : as.mapM f with
            | error e => rw [ha, has] at h; cases h
            | ok bs' =>
                rw [ha, has] at h
                cases h
                exact ⟨b, bs', rfl, ih.mp has, rfl⟩
      · rintro ⟨b, bs', ha, has, rfl⟩
        rw [ha, ih.mpr has]
        rfl

theorem exists_of_mem_mapM {f : α → Except ε β} {as : List α} {bs : List β}
    (h : as.mapM f = .ok bs) {b : β} (hb : b ∈ bs) : ∃ a ∈ as, f a = .ok b := by
  replace h := mapM_eq_ok.mp h
  induction h with
  | nil => cases hb
  | cons hab _ ih =>
      rcases List.mem_cons.mp hb with rfl | hb
      · exact ⟨_, List.mem_cons_self, hab⟩
      · obtain ⟨a, ha, hfa⟩ := ih hb
        exact ⟨a, List.mem_cons_of_mem _ ha, hfa⟩

/-! ## Loops -/

theorem commits_forM_cons (f : α → Transaction σ ε PUnit) (a : α) (as : List α)
    (s s'' : σ) :
    Commits (forM (a :: as) f) s ⟨⟩ s'' ↔
      ∃ s', (f a).Commits s ⟨⟩ s' ∧ (forM as f).Commits s' ⟨⟩ s'' := by
  rw [List.forM_cons, commits_bind]
  exact ⟨fun ⟨_, s', h⟩ => ⟨s', h⟩, fun ⟨s', h⟩ => ⟨⟨⟩, s', h⟩⟩

/-- The loop rule: an assertion indexed by the elements still to come, kept by
every committed pass through the body, holds with none left at the end. -/
theorem Commits.forM {f : α → Transaction σ ε PUnit} {as : List α} {s s' : σ}
    (I : List α → σ → Prop)
    (body : ∀ a rest t t', I (a :: rest) t → (f a).Commits t ⟨⟩ t' → I rest t')
    (h : (forM as f).Commits s ⟨⟩ s') (hinit : I as s) : I [] s' := by
  induction as generalizing s with
  | nil =>
      simp only [List.forM_nil, commits_pure, true_and] at h
      exact h ▸ hinit
  | cons a as ih =>
      rw [commits_forM_cons] at h
      obtain ⟨t, hbody, hrest⟩ := h
      exact ih hrest (body a as s t hinit hbody)

/-- A loop whose body commits from every state commits. -/
theorem exists_commits_forM {f : α → Transaction σ ε PUnit}
    (body : ∀ a t, ∃ t', (f a).Commits t ⟨⟩ t') (as : List α) (s : σ) :
    ∃ s', (forM as f).Commits s ⟨⟩ s' := by
  induction as generalizing s with
  | nil => exact ⟨s, by simp⟩
  | cons a as ih =>
      obtain ⟨t, hone⟩ := body a s
      obtain ⟨s', hrest⟩ := ih t
      exact ⟨s', (commits_forM_cons ..).mpr ⟨t, hone, hrest⟩⟩

/-! ## Transactions over a larger state -/

section Embed

variable {τ δ : Type}

/-- Run `m` on the part of a larger state that `view` reads and `put` writes back, with
its errors renamed. -/
def embed (view : τ → σ) (put : τ → σ → τ) (rename : ε → δ) (m : Transaction σ ε α) :
    Transaction τ δ α := fun t =>
  match m (view t) with
  | .ok (a, s) => .ok (a, put t s)
  | .error e => .error (rename e)

theorem commits_embed (view : τ → σ) (put : τ → σ → τ) (rename : ε → δ)
    (m : Transaction σ ε α) (t t' : τ) (a : α) :
    Commits (embed view put rename m) t a t' ↔
      ∃ s', m.Commits (view t) a s' ∧ t' = put t s' := by
  unfold Commits
  change embed view put rename m t = _ ↔ ∃ s', m (view t) = _ ∧ _
  unfold embed
  cases m (view t) with
  | error e => exact ⟨nofun, fun ⟨_, h, _⟩ => nomatch h⟩
  | ok r =>
      constructor
      · intro h
        cases h
        exact ⟨r.2, rfl, rfl⟩
      · rintro ⟨s', h, rfl⟩
        cases h
        rfl

/-- Rename the errors of a transaction. -/
def mapErrors (rename : ε → δ) (m : Transaction σ ε α) : Transaction σ δ α :=
  embed id (fun _ s => s) rename m

@[simp] theorem commits_mapErrors (rename : ε → δ) (m : Transaction σ ε α) (s s' : σ) (a : α) :
    Commits (mapErrors rename m) s a s' ↔ m.Commits s a s' := by
  unfold mapErrors
  rw [commits_embed]
  exact ⟨fun ⟨_, h, heq⟩ => heq ▸ h, fun h => ⟨s', h, rfl⟩⟩

@[simp] theorem raises_mapErrors (rename : ε → δ) (m : Transaction σ ε α) (s : σ) (e : δ) :
    Raises (mapErrors rename m) s e ↔ ∃ e', m.Raises s e' ∧ rename e' = e := by
  unfold Raises
  change embed id (fun _ s => s) rename m s = _ ↔ ∃ e', m s = _ ∧ _
  unfold embed
  cases hm : m s with
  | ok r =>
      rw [show m (id s) = .ok r from hm]
      exact ⟨nofun, fun ⟨_, h, _⟩ => nomatch h⟩
  | error e' =>
      rw [show m (id s) = .error e' from hm]
      constructor
      · intro h
        cases h
        exact ⟨e', rfl, rfl⟩
      · rintro ⟨_, h, rfl⟩
        cases h
        rfl

end Embed

/-! ## What a transaction may raise -/

/-- Every error that `m` raises satisfies `E`. -/
def RaisesOnly (E : ε → Prop) (m : Transaction σ ε α) : Prop :=
  ∀ s e, m.Raises s e → E e

namespace RaisesOnly

variable {E : ε → Prop}

theorem pure (a : α) : RaisesOnly E (Pure.pure a : Transaction σ ε α) :=
  fun s e h => absurd h (raises_pure a s e)

theorem bind {m : Transaction σ ε α} {f : α → Transaction σ ε β} (hm : RaisesOnly E m)
    (hf : ∀ a, RaisesOnly E (f a)) : RaisesOnly E (m >>= f) := by
  intro s e h
  rw [raises_bind] at h
  rcases h with h | ⟨a, s', -, h⟩
  · exact hm s e h
  · exact hf a s' e h

theorem ite {c : Prop} [Decidable c] {m n : Transaction σ ε α} (hm : RaisesOnly E m)
    (hn : RaisesOnly E n) : RaisesOnly E (if c then m else n) := by
  split_ifs
  · exact hm
  · exact hn

theorem orThrow (x : Option α) {e : ε} (he : E e) :
    RaisesOnly E (Transaction.orThrow x e : Transaction σ ε α) := by
  intro s e' h
  rw [raises_orThrow] at h
  exact h.2 ▸ he

theorem fromExcept {x : Except ε α} (hx : ∀ e, x = .error e → E e) :
    RaisesOnly E (Transaction.fromExcept x : Transaction σ ε α) := by
  intro s e h
  rw [raises_fromExcept] at h
  exact hx e h

theorem loop {f : α → Transaction σ ε PUnit} (hf : ∀ a, RaisesOnly E (f a)) (as : List α) :
    RaisesOnly E (forM as f) := by
  induction as with
  | nil => exact .pure PUnit.unit
  | cons a as ih => exact .bind (hf a) fun _ => ih

end RaisesOnly

end Transaction

end Refearn.Support

/-!
## Interactive transactions

A transaction of PostgreSQL that the program drives statement by statement. A statement that
fails aborts it: from then on the server refuses every statement until the transaction is rolled
back. The program can catch the error of a statement, but not the abortion.
-/

namespace Refearn.Support

/-- A transaction under way: what it has written so far, and whether a statement has failed. -/
structure Interactive (σ : Type) where
  state : σ
  aborted : Bool

/-- What the program does inside a transaction. An error keeps the transaction as it is. -/
def Callback (σ ε α : Type) : Type := Interactive σ → Except ε α × Interactive σ

namespace Callback

variable {σ ε α β : Type}

instance : Monad (Callback σ ε) where
  pure a s := (.ok a, s)
  bind m f s :=
    match m s with
    | (.ok a, s') => f a s'
    | (.error e, s') => (.error e, s')

instance : MonadExceptOf ε (Callback σ ε) where
  throw e s := (.error e, s)
  tryCatch m handle s :=
    match m s with
    | (.ok a, s') => (.ok a, s')
    | (.error e, s') => handle e s'

def run (m : Callback σ ε α) (s : Interactive σ) : Except ε α × Interactive σ := m s

/-- One statement; `refused` is what the server answers in an aborted transaction. -/
def statement (refused : ε) (f : σ → Except ε (α × σ)) : Callback σ ε α := fun s =>
  if s.aborted then (.error refused, s)
  else
    match f s.state with
    | .ok (a, state) => (.ok a, { s with state })
    | .error e => (.error e, { s with aborted := true })

/-- `$transaction`: an error rolls back, and so does the commit of an aborted transaction. -/
def transact (m : Callback σ ε α) (state : σ) : Except ε α × σ :=
  match m.run ⟨state, false⟩ with
  | (.ok a, s) => (.ok a, if s.aborted then state else s.state)
  | (.error e, _) => (.error e, state)

variable {m : Callback σ ε α} {f : α → Callback σ ε β} {handle : ε → Callback σ ε α}
  {g : σ → Except ε (α × σ)} {s s' : Interactive σ} {a : α} {e refused : ε} {state state' : σ}

theorem run_pure : (pure a : Callback σ ε α).run s = (.ok a, s) := rfl

theorem run_throw : (throw e : Callback σ ε α).run s = (.error e, s) := rfl

theorem bind_ok (h : m.run s = (.ok a, s')) : (m >>= f).run s = (f a).run s' := by
  unfold run at h ⊢
  simp only [bind, h]

theorem bind_error (h : m.run s = (.error e, s')) : (m >>= f).run s = (.error e, s') := by
  unfold run at h ⊢
  simp only [bind, h]

theorem tryCatch_ok (h : m.run s = (.ok a, s')) : (tryCatch m handle).run s = (.ok a, s') := by
  unfold run at h ⊢
  simp only [tryCatch, tryCatchThe, MonadExceptOf.tryCatch, h]

theorem tryCatch_error (h : m.run s = (.error e, s')) :
    (tryCatch m handle).run s = (handle e).run s' := by
  unfold run at h ⊢
  simp only [tryCatch, tryCatchThe, MonadExceptOf.tryCatch, h]

theorem statement_ok (h : g state = .ok (a, state')) :
    (statement refused g).run ⟨state, false⟩ = (.ok a, ⟨state', false⟩) := by
  unfold run statement
  rw [if_neg Bool.false_ne_true, h]

theorem statement_error (h : g state = .error e) :
    (statement refused g).run ⟨state, false⟩ = (.error e, ⟨state, true⟩) := by
  unfold run statement
  rw [if_neg Bool.false_ne_true, h]

/-- Nothing happens any more once a statement has failed. -/
theorem statement_aborted :
    (statement refused g).run ⟨state, true⟩ = (.error refused, ⟨state, true⟩) := by
  unfold run statement
  rw [if_pos rfl]

theorem transact_ok (h : m.run ⟨state, false⟩ = (.ok a, ⟨state', false⟩)) :
    transact m state = (.ok a, state') := by
  unfold transact
  rw [h]
  rfl

theorem transact_error (h : m.run ⟨state, false⟩ = (.error e, s)) :
    transact m state = (.error e, state) := by
  unfold transact
  rw [h]

end Callback

end Refearn.Support
