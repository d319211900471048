import Refearn.Payouts.Presentation
/-!
# Which events a fold accepts

The fold of an event log shows a state exactly for the legal histories, whatever order the
events arrive in and however often. A legal history is a run of the machine of the payout states.
-/

namespace Refearn.Payouts.Presentation

open Support Support.EventLog

/-! ## The machine -/

/-- How far a payout has come; `processing` is by one attempt on one rail. -/
inductive Stage
  | start
  | requested
  | processing (attemptId : String) (method : PayoutRail)
  | closed (state : PayoutState)
  deriving DecidableEq

def Stage.state : Stage → Option PayoutState
  | .start => none
  | .requested => some .requested
  | .processing _ _ => some .processing
  | .closed state => some state

/-- A payout that can be put on hold. -/
def Stage.isOpen : Stage → Bool
  | .requested | .processing _ _ => true
  | .start | .closed _ => false

/-- An event that names neither an attempt nor a rail. -/
def SyntheticPayoutEvent.IsPlain (e : SyntheticPayoutEvent) : Prop :=
  e.attemptId.join = none ∧ e.method.join = none

inductive Move : Stage → SyntheticPayoutEvent → Stage → Prop
  | request {e : SyntheticPayoutEvent} (htype : e.type = .requested) (hplain : e.IsPlain) :
      Move .start e .requested
  | reject {e : SyntheticPayoutEvent} (htype : e.type = .rejected) (hplain : e.IsPlain) :
      Move .requested e (.closed .rejected)
  | process {e : SyntheticPayoutEvent} {attemptId : String} {method : PayoutRail}
      (htype : e.type = .processing) (hattempt : e.attemptId = some (some attemptId))
      (hmethod : e.method = some (some method)) (htext : text attemptId = true) :
      Move .requested e (.processing attemptId method)
  | settle {e : SyntheticPayoutEvent} {attemptId : String} {method : PayoutRail}
      (htype : e.type = .settled) (hattempt : e.attemptId = some (some attemptId))
      (hmethod : e.method = some (some method)) :
      Move (.processing attemptId method) e (.closed .settled)
  | fail {e : SyntheticPayoutEvent} {attemptId : String} {method : PayoutRail}
      (htype : e.type = .failed) (hattempt : e.attemptId = some (some attemptId))
      (hmethod : e.method = some (some method)) :
      Move (.processing attemptId method) e (.closed .failed)
  | hold {e : SyntheticPayoutEvent} {stage : Stage} {reasonCode : String} {owner : HoldOwner}
      (htype : e.type = .hold) (hopen : stage.isOpen = true) (hplain : e.IsPlain)
      (hreason : e.reasonCode = some reasonCode) (htext : text reasonCode = true)
      (howner : e.owner = some owner) : Move stage e stage

/-- A run over events in order. -/
inductive Path : Stage → List SyntheticPayoutEvent → Stage → Prop
  | nil {stage : Stage} : Path stage [] stage
  | cons {stage mid last : Stage} {e : SyntheticPayoutEvent} {es : List SyntheticPayoutEvent}
      (hmove : Move stage e mid) (hpath : Path mid es last) : Path stage (e :: es) last

/-- No event is earlier than the one before it, the first no earlier than the instant. -/
def Chronological : Instant → List SyntheticPayoutEvent → Prop
  | _, [] => True
  | previous, e :: es =>
      ∃ occurred, date e.occurredAt = some occurred ∧ previous ≤ occurred ∧
        Chronological occurred es

/-! ## One event -/

/-- What the variables of the loop say about the stage. -/
def FoldState.At (s : FoldState) : Stage → Prop
  | .start => s.state = none
  | .requested => s.state = some .requested
  | .processing attemptId method =>
      s.state = some .processing ∧ s.attemptId = some attemptId ∧ s.method = some method
  | .closed state => s.state = some state ∧ state.isTerminal = true

section Step

variable {s s' : FoldState} {stage stage' : Stage} {e : SyntheticPayoutEvent}
  {occurred : Instant} {es : List SyntheticPayoutEvent}

theorem FoldState.At.state (h : s.At stage) : s.state = stage.state := by
  cases stage with
  | start => exact h
  | requested => exact h
  | processing attemptId method => exact h.1
  | closed state => exact h.1

theorem isEmpty_eq_true {α : Type} {value : Given α} : isEmpty value = true ↔ value.join = none :=
  Option.isNone_iff_eq_none

/-- An open state is that of an open stage. -/
theorem FoldState.At.isOpen (h : s.At stage) {state : PayoutState} (hstate : s.state = some state) :
    stage.isOpen = !state.isTerminal := by
  rw [h.state] at hstate
  cases stage with
  | start => cases hstate
  | requested => cases hstate; rfl
  | processing attemptId method => cases hstate; rfl
  | closed closing =>
      cases hstate
      rw [h.2]
      rfl

variable (occurred) in
/-- The loop takes an event exactly if the machine moves. -/
theorem applyEvent_of_move (h : s.At stage) (hmove : Move stage e stage') :
    ∃ s', applyEvent s occurred e = some s' ∧ s'.At stage' ∧ s'.previous = s.previous := by
  unfold applyEvent
  cases hmove with
  | request htype hplain =>
      have hstate : s.state = none := h
      simp [htype, hstate, isEmpty, hplain.1, hplain.2, FoldState.At]
  | reject htype hplain =>
      have hstate : s.state = some .requested := h
      simp [htype, hstate, isEmpty, hplain.1, hplain.2, FoldState.At, PayoutState.isTerminal]
  | process htype hattempt hmethod htext =>
      have hstate : s.state = some .requested := h
      simp [htype, hstate, hattempt, hmethod, htext, FoldState.At]
  | settle htype hattempt hmethod =>
      obtain ⟨hstate, ha, hm⟩ := h
      simp [htype, hstate, hattempt, hmethod, ha, hm, FoldState.At, PayoutState.isTerminal]
  | fail htype hattempt hmethod =>
      obtain ⟨hstate, ha, hm⟩ := h
      simp [htype, hstate, hattempt, hmethod, ha, hm, FoldState.At, PayoutState.isTerminal]
  | @hold _ _ reasonCode owner htype hopen hplain hreason htext howner =>
      cases hstate : s.state with
      | none =>
          rw [h.state] at hstate
          cases stage <;> cases hstate
          cases hopen
      | some state =>
          have hterminal : state.isTerminal = false := by
            have hboth := h.isOpen hstate
            rw [hopen] at hboth
            simpa using hboth.symm
          refine ⟨{ s with hold := some ⟨reasonCode, owner⟩ }, ?_, ?_, rfl⟩
          · simp [htype, hreason, howner, hterminal, htext, isEmpty, hplain.1, hplain.2]
            exact hstate.symm
          · cases stage <;> exact h

theorem stage_of_requested (h : s.At stage) (hstate : s.state = some .requested) :
    stage = .requested := by
  rw [h.state] at hstate
  cases stage with
  | start => cases hstate
  | requested => rfl
  | processing attemptId method => cases hstate
  | closed state =>
      cases hstate
      exact absurd h.2 Bool.false_ne_true

theorem stage_of_processing (h : s.At stage) (hstate : s.state = some .processing) :
    ∃ attemptId method, stage = .processing attemptId method := by
  have hstage := hstate
  rw [h.state] at hstage
  cases stage with
  | start => cases hstage
  | requested => cases hstage
  | processing attemptId method => exact ⟨attemptId, method, rfl⟩
  | closed state =>
      cases hstage
      exact absurd h.2 Bool.false_ne_true

theorem move_of_applyEvent (h : s.At stage) (happly : applyEvent s occurred e = some s') :
    ∃ stage', Move stage e stage' ∧ s'.At stage' ∧ s'.previous = s.previous := by
  unfold applyEvent at happly
  cases htype : e.type with
  | hold =>
      simp only [htype] at happly
      split at happly
      · rename_i state reasonCode owner hstate hreason howner
        split_ifs at happly with hrefused
        cases happly
        simp only [Bool.or_eq_true, Bool.not_eq_true', not_or, Bool.not_eq_true,
          Bool.not_eq_false, isEmpty_eq_true] at hrefused
        obtain ⟨⟨⟨hterminal, htext⟩, hattempt⟩, hmethod⟩ := hrefused
        have hopen : stage.isOpen = true := by rw [h.isOpen hstate, hterminal]; rfl
        refine ⟨stage, .hold htype hopen ⟨hattempt, hmethod⟩ hreason htext howner, ?_, rfl⟩
        cases stage <;> exact h
      · cases happly
  | requested =>
      simp only [htype] at happly
      split_ifs at happly with hrefused
      cases happly
      simp only [Bool.or_eq_true, Bool.not_eq_true', not_or, Bool.not_eq_false, isEmpty_eq_true,
        Option.not_isSome_iff_eq_none] at hrefused
      obtain ⟨⟨hstate, hattempt⟩, hmethod⟩ := hrefused
      have hstage : stage = .start := by
        rw [h.state] at hstate
        cases stage <;> first | rfl | cases hstate
      subst hstage
      exact ⟨.requested, .request htype ⟨hattempt, hmethod⟩, rfl, rfl⟩
  | processing =>
      simp only [htype] at happly
      split at happly
      · rename_i attemptId method hattempt hmethod
        split_ifs at happly with hrefused
        cases happly
        simp only [Bool.or_eq_true, Bool.not_eq_true', not_or, Bool.not_eq_false, decide_not,
          decide_eq_true_eq, ne_eq] at hrefused
        have hstage := stage_of_requested h hrefused.1
        subst hstage
        exact ⟨.processing attemptId method, .process htype hattempt hmethod hrefused.2,
          ⟨rfl, rfl, rfl⟩, rfl⟩
      · cases happly
  | rejected =>
      simp only [htype] at happly
      split_ifs at happly with hrefused
      cases happly
      simp only [Bool.or_eq_true, Bool.not_eq_true', not_or, Bool.not_eq_false, isEmpty_eq_true,
        decide_not, decide_eq_true_eq, ne_eq] at hrefused
      obtain ⟨⟨hstate, hattempt⟩, hmethod⟩ := hrefused
      have hstage := stage_of_requested h hstate
      subst hstage
      exact ⟨.closed .rejected, .reject htype ⟨hattempt, hmethod⟩, ⟨rfl, rfl⟩, rfl⟩
  | settled =>
      simp only [htype] at happly
      split_ifs at happly with hrefused
      cases happly
      simp only [Bool.or_eq_true, not_or, decide_not, decide_eq_true_eq, ne_eq,
        Bool.not_eq_true', Bool.not_eq_false] at hrefused
      obtain ⟨⟨hstate, hattempt⟩, hmethod⟩ := hrefused
      obtain ⟨attemptId, method, rfl⟩ := stage_of_processing h hstate
      rw [h.2.1] at hattempt
      rw [h.2.2] at hmethod
      exact ⟨.closed .settled, .settle htype hattempt hmethod, ⟨rfl, rfl⟩, rfl⟩
  | failed =>
      simp only [htype, reduceCtorEq, if_false] at happly
      split_ifs at happly with hrefused
      cases happly
      simp only [Bool.or_eq_true, not_or, decide_not, decide_eq_true_eq, ne_eq,
        Bool.not_eq_true', Bool.not_eq_false] at hrefused
      obtain ⟨⟨hstate, hattempt⟩, hmethod⟩ := hrefused
      obtain ⟨attemptId, method, rfl⟩ := stage_of_processing h hstate
      rw [h.2.1] at hattempt
      rw [h.2.2] at hmethod
      exact ⟨.closed .failed, .fail htype hattempt hmethod, ⟨rfl, rfl⟩, rfl⟩
  | reversed =>
      simp only [htype] at happly
      cases happly

/-! ## Whole histories -/

theorem foldEvent_eq_some :
    foldEvent s e = some s' ↔
      ∃ occurred, date e.occurredAt = some occurred ∧ s.previous ≤ occurred ∧
        applyEvent { s with previous := occurred } occurred e = some s' := by
  unfold foldEvent
  simp only [Option.bind_eq_bind, Option.bind_eq_some_iff, Option.ite_none_left_eq_some, not_lt]

theorem FoldState.At.setPrevious (h : s.At stage) (t : Instant) :
    FoldState.At { s with previous := t } stage := by
  cases stage <;> exact h

/-- The loop goes through exactly the runs of the machine in the order of time. -/
theorem path_of_foldlM (h : s.At stage) (hfold : es.foldlM foldEvent s = some s') :
    Chronological s.previous es ∧ ∃ stage', Path stage es stage' ∧ s'.At stage' := by
  induction es generalizing s stage with
  | nil =>
      cases hfold
      exact ⟨trivial, stage, .nil, h⟩
  | cons e es ih =>
      rw [List.foldlM_cons, Option.bind_eq_bind, Option.bind_eq_some_iff] at hfold
      obtain ⟨mid, hstep, hrest⟩ := hfold
      obtain ⟨occurred, hoccurred, hle, happly⟩ := foldEvent_eq_some.mp hstep
      obtain ⟨midStage, hmove, hmid, hprevious⟩ := move_of_applyEvent (h.setPrevious occurred) happly
      obtain ⟨hchronological, last, hpath, hlast⟩ := ih hmid hrest
      rw [hprevious] at hchronological
      exact ⟨⟨occurred, hoccurred, hle, hchronological⟩, last, .cons hmove hpath, hlast⟩

theorem foldlM_of_path (h : s.At stage) (hchronological : Chronological s.previous es)
    (hpath : Path stage es stage') :
    ∃ s', es.foldlM foldEvent s = some s' ∧ s'.At stage' := by
  induction hpath generalizing s with
  | nil => exact ⟨s, rfl, h⟩
  | cons hmove _ ih =>
      obtain ⟨occurred, hoccurred, hle, hrest⟩ := hchronological
      obtain ⟨mid, happly, hmid, hprevious⟩ :=
        applyEvent_of_move occurred (h.setPrevious occurred) hmove
      obtain ⟨last, hlast, hat⟩ := ih hmid (by rw [hprevious]; exact hrest)
      refine ⟨last, ?_, hat⟩
      rw [List.foldlM_cons, Option.bind_eq_bind,
        foldEvent_eq_some.mpr ⟨occurred, hoccurred, hle, happly⟩, Option.bind_some]
      exact hlast

end Step

/-! ## Comparing events -/

theorem PayoutRail.text_injective : Function.Injective PayoutRail.text := by
  intro a b h
  cases a <;> cases b <;> first | rfl | exact absurd h (by decide)

theorem HoldOwner.text_injective : Function.Injective HoldOwner.text := by
  intro a b h
  cases a <;> cases b <;> first | rfl | exact absurd h (by decide)

theorem PayoutEventType.text_injective : Function.Injective PayoutEventType.text := by
  intro a b h
  cases a <;> cases b <;> first | rfl | exact absurd h (by decide)

theorem ofOption_injective : Function.Injective Json.ofOption := by
  intro a b h
  cases a <;> cases b <;> cases h <;> rfl

theorem str_injective : Function.Injective Json.str := fun _ _ => Json.str.inj

theorem versionJson_injective :
    Function.Injective fun v : Option Int => (v.map Json.num).getD .null := by
  intro a b h
  cases a <;> cases b <;> cases h <;> rfl

theorem members_nodup (e : SyntheticPayoutEvent) : (e.members.map Prod.fst).Nodup := by
  have hnames : e.members.map Prod.fst =
      ["attemptId", "auditReference", "authoritativeVersion", "id", "method", "occurredAt",
        "owner", "reasonCode", "type"] := rfl
  rw [hnames]
  decide

/-- Events with one canonical text are the same. -/
theorem stable_injective : Function.Injective stable := by
  intro a b h
  have hmembers : a.members = b.members :=
    Json.defined_inj (members_nodup a) rfl (Json.obj.inj (Json.stringify_injective h))
  simp only [SyntheticPayoutEvent.members, List.cons.injEq, Prod.mk.injEq, true_and, and_true,
    Option.some.injEq] at hmembers
  obtain ⟨hattempt, haudit, hversion, hid, hmethod, hoccurred, howner, hreason, htype⟩ := hmembers
  have htext : Function.Injective (Option.map (Option.map PayoutRail.text)) :=
    Option.map_injective (Option.map_injective PayoutRail.text_injective)
  have hgiven : Function.Injective givenText := Option.map_injective ofOption_injective
  have howners : Function.Injective (Option.map fun o : HoldOwner => Json.str o.text) :=
    Option.map_injective (str_injective.comp HoldOwner.text_injective)
  cases a
  cases b
  simp only [SyntheticPayoutEvent.mk.injEq]
  exact ⟨str_injective hid, versionJson_injective hversion,
    PayoutEventType.text_injective (str_injective htype), str_injective hoccurred,
    hgiven hattempt, htext (hgiven hmethod), Option.map_injective str_injective hreason,
    howners howner, Option.map_injective str_injective haudit⟩

theorem stable_compares : Compares isWellFormed stable := fun _ _ _ _ h => stable_injective h

theorem versionThenId_sortsBy (locale : LocaleOrder) :
    SortsBy SyntheticPayoutEvent.version (versionThenId locale) where
  trans a b c hab hbc := by
    simp only [versionThenId, Bool.or_eq_true, decide_eq_true_eq, Bool.and_eq_true] at *
    rcases hab with hab | ⟨hab, hab'⟩ <;> rcases hbc with hbc | ⟨hbc, hbc'⟩
    · exact .inl (hab.trans hbc)
    · exact .inl (by omega)
    · exact .inl (by omega)
    · exact .inr ⟨hab.trans hbc, locale.trans _ _ _ hab' hbc'⟩
  total a b := by
    have htotal := locale.total a.id b.id
    simp only [versionThenId, Bool.or_eq_true, decide_eq_true_eq, Bool.and_eq_true] at *
    rcases lt_trichotomy a.version b.version with h | h | h
    · exact .inl (.inl h)
    · exact htotal.imp (fun hle => .inr ⟨h, hle⟩) fun hle => .inr ⟨h.symm, hle⟩
    · exact .inr (.inl h)
  number a b h := by
    simp only [versionThenId, Bool.or_eq_true, decide_eq_true_eq, Bool.and_eq_true] at h
    omega

/-! ## What the fold accepts -/

/-- The events are those of a legal history that ends in the state: each under an identifier of
its own, in versions 1, 2, …, none earlier than the creation or the event before it, and a run of
the machine. -/
structure LegalHistory (events : List SyntheticPayoutEvent) (created : Instant)
    (h : List SyntheticPayoutEvent) (state : PayoutState) : Prop where
  members : ∀ e, e ∈ h ↔ e ∈ events
  wellFormed : ∀ e ∈ h, isWellFormed e = true
  ids : (h.map SyntheticPayoutEvent.id).Nodup
  versions : Numbered SyntheticPayoutEvent.version h
  chronological : Chronological created h
  path : ∃ stage, Path .start h stage ∧ stage.state = some state

theorem Path.nonempty {es : List SyntheticPayoutEvent} {stage : Stage} {state : PayoutState}
    (h : Path .start es stage) (hstate : stage.state = some state) : es ≠ [] := by
  rintro rfl
  cases h
  cases hstate

theorem sortedEvents_eq_some_iff {locale : LocaleOrder} {events h : List SyntheticPayoutEvent} :
    sortedEvents locale events = some h ↔
      IsHistory isWellFormed SyntheticPayoutEvent.id SyntheticPayoutEvent.version events h :=
  history_eq_some_iff stable_compares (versionThenId_sortsBy locale)

/-- The state that the two loops end in. -/
theorem foldSorted_iff (locale : LocaleOrder) {events : List SyntheticPayoutEvent}
    {created : Instant} {state : PayoutState} :
    (∃ s, (sortedEvents locale events).bind
        (List.foldlM foldEvent ⟨none, none, none, none, none, none, created⟩) = some s ∧
        s.state = some state) ↔
      ∃ h, LegalHistory events created h state := by
  simp only [Option.bind_eq_some_iff, sortedEvents_eq_some_iff]
  constructor
  · rintro ⟨s, ⟨h, hhistory, hfold⟩, hstate⟩
    have hstart : FoldState.At ⟨none, none, none, none, none, none, created⟩ .start := rfl
    obtain ⟨hchronological, stage, hpath, hat⟩ := path_of_foldlM hstart hfold
    rw [hat.state] at hstate
    exact ⟨h, hhistory.holds.members, hhistory.holds.valid, hhistory.holds.ids,
      hhistory.numbered, hchronological, stage, hpath, hstate⟩
  · rintro ⟨h, hmembers, hwellFormed, hids, hversions, hchronological, stage, hpath, hstate⟩
    have hstart : FoldState.At ⟨none, none, none, none, none, none, created⟩ .start := rfl
    obtain ⟨s, hfold, hat⟩ := foldlM_of_path hstart hchronological hpath
    exact ⟨s, ⟨h, ⟨⟨hmembers, hwellFormed, hids⟩, hpath.nonempty hstate, hversions⟩, hfold⟩,
      hat.state.trans hstate⟩

theorem fold_state_eq_some_iff {locale : LocaleOrder} {events : List SyntheticPayoutEvent}
    {seed : SyntheticPayoutSeed} {state : PayoutState} :
    (foldSyntheticPayoutEvents locale events seed).state = some state ↔
      seed.input.hasFinancialContext = true ∧
        ∃ created, date seed.createdAt = some created ∧
          ∃ h, LegalHistory events created h state := by
  unfold foldSyntheticPayoutEvents
  cases hcreated : date seed.createdAt with
  | none => simp [unavailable]
  | some created =>
      cases hcontext : seed.input.hasFinancialContext with
      | false => simp [hcontext, unavailable]
      | true =>
          simp only [Bool.not_true, Bool.false_eq_true, if_false, true_and,
            Option.some.injEq, exists_eq_left']
          rw [← foldSorted_iff locale]
          split
          · rename_i hnone
            simp [hnone, unavailable]
          · rename_i s hsome
            simp only [hsome, Option.some.injEq, exists_eq_left']
            cases hstate : s.state with
            | none => simp [unavailable]
            | some final => simp [presentation]

/-- Which events have arrived decides what is shown, neither their order nor their repetitions;
and a state is shown exactly at the end of a legal history, under a seed that has a date and a
financial context. -/
theorem fold_legal_histories (locale : LocaleOrder) (events : List SyntheticPayoutEvent)
    (seed : SyntheticPayoutSeed) :
    (∀ events', (∀ e, e ∈ events' ↔ e ∈ events) →
        foldSyntheticPayoutEvents locale events' seed =
          foldSyntheticPayoutEvents locale events seed) ∧
      ∀ state, (foldSyntheticPayoutEvents locale events seed).state = some state ↔
        seed.input.hasFinancialContext = true ∧
          ∃ created, date seed.createdAt = some created ∧
            ∃ h, LegalHistory events created h state := by
  refine ⟨fun events' hsame => ?_, fun state => fold_state_eq_some_iff⟩
  have hsorted : sortedEvents locale events' = sortedEvents locale events :=
    history_congr stable_compares (versionThenId_sortsBy locale) hsame
  unfold foldSyntheticPayoutEvents
  rw [hsorted]

/-- The only event of a payout is its request, in version 1 and at the creation. It names an
attempt, so nothing is shown. -/
theorem fold_refuses_attempt_of_request :
    ∃ (e : SyntheticPayoutEvent) (seed : SyntheticPayoutSeed) (created : Instant),
      seed.input.hasFinancialContext = true ∧ date seed.createdAt = some created ∧
        isWellFormed e = true ∧ Numbered SyntheticPayoutEvent.version [e] ∧
        Chronological created [e] ∧ e.type = .requested ∧
        (foldSyntheticPayoutEvents ⟨fun _ _ => true, fun _ _ _ _ _ => rfl, fun _ _ => rfl⟩ [e]
          seed).state = none :=
  ⟨⟨"r", some 1, .requested, "2026-06-01T10:00:00.000Z", some (some "a"), none, none, none, none⟩,
    ⟨"12500", "USD", "2026-06", "2026-06-01T10:00:00.000Z"⟩, 1780308000000, by decide +kernel,
    by decide +kernel, by decide +kernel, by decide +kernel,
    ⟨1780308000000, by decide +kernel, by decide, trivial⟩, rfl, by decide +kernel⟩

end Refearn.Payouts.Presentation
