import Refearn.Engine.Run
import Refearn.Ranks.Proofs.Ladder
import Refearn.Ranks.RankUps
/-!
# One notification for each ascent

While runs do not overlap, the rank a run has read is still the one stored when it writes. So what
is stored of a member is no lower than its notifications, or was seen after them.
-/

namespace Refearn.Ranks

open Support

/-! ## What is known of a member -/

/-- Every notification of the member to a tier above `r` was followed by the sight of `r`. -/
def Settled (events : List Event) (m : Uuid) (r : Int) : Prop :=
  Answered (fun e => ∃ t, e = .notified m t ∧ r < t.sortOrder) (· = .saw m r) events

section Settled

variable {events : List Event} {m m' : Uuid} {r s : Int} {tier : Tier}

theorem Settled.saw (h : Settled events m r) (m' : Uuid) (s : Int) :
    Settled (events ++ [.saw m' s]) m r := by
  refine Answered.concat h ?_
  rintro ⟨_, heq, _⟩
  cases heq

theorem settled_saw (events : List Event) (m : Uuid) (r : Int) :
    Settled (events ++ [.saw m r]) m r := by
  refine Answered.of_answer rfl ?_
  rintro ⟨_, heq, _⟩
  cases heq

theorem Settled.notified (h : Settled events m r) (hquiet : m = m' → tier.sortOrder ≤ r) :
    Settled (events ++ [.notified m' tier]) m r := by
  refine Answered.concat h ?_
  rintro ⟨t, heq, hlt⟩
  cases heq
  exact absurd (hquiet rfl) (not_le.mpr hlt)

theorem AscentsOnce.saw (h : AscentsOnce events) (m : Uuid) (s : Int) :
    AscentsOnce (events ++ [.saw m s]) := by
  intro before m' t after heq
  rcases concat_eq_append_cons.mp heq with ⟨_, hsaw, _⟩ | ⟨rest, _, hrest⟩
  · cases hsaw
  · exact h before m' t rest hrest

/-- A member known at `r` may be notified of anything above it. -/
theorem AscentsOnce.notified (h : AscentsOnce events) (hsettled : Settled events m r)
    (hlt : r < tier.sortOrder) : AscentsOnce (events ++ [.notified m tier]) := by
  intro before m' t after heq
  rcases concat_eq_append_cons.mp heq with ⟨rfl, hnotified, _⟩ | ⟨rest, _, hrest⟩
  · cases hnotified
    refine Answered.imp hsettled ?_ ?_
    · rintro _ ⟨t', rfl, hle⟩
      exact ⟨t', rfl, hlt.trans_le hle⟩
    · rintro _ rfl
      exact ⟨r, rfl, hlt⟩
  · exact h before m' t rest hrest

end Settled

/-! ## The invariant -/

/-- The members a run has read and not yet left. -/
def Phase.queued : Phase → List (Uuid × Option Int)
  | .tenants _ => []
  | .members _ queue _ => queue
  | .resolved _ m last _ queue _ => (m, last) :: queue
  | .notified _ m last _ queue _ => (m, last) :: queue

/-- The member a run is at, and the rank it has found. -/
def Phase.sight : Phase → Option (Uuid × Int)
  | .resolved _ m _ tier _ _ => some (m, currentSort tier)
  | .notified _ m _ tier _ _ => some (m, tier.sortOrder)
  | _ => none

/-- With at most one run under way, in the given phase. -/
structure OrderlyAt (phase : Option Phase) (w : Notifier) : Prop where
  names : ∀ p ∈ phase, (p.queued.map Prod.fst).Nodup
  read : ∀ p ∈ phase, ∀ e ∈ p.queued, w.lastRank e.1 = e.2
  sight : ∀ p ∈ phase, ∀ m r, p.sight = some (m, r) → Settled w.events m r
  /-- what is stored is known, but for the member just notified -/
  stored : ∀ m r, w.lastRank m = some r →
    (∀ p ∈ phase, p.between → ∀ s, p.sight ≠ some (m, s)) → Settled w.events m r
  ascents : AscentsOnce w.events

section Advance

variable {w : Notifier} {p : Phase} {t m : Uuid} {last : Option Int} {s : Int}
  {queue : List (Uuid × Option Int)} {rest : List Uuid}

/-- A run that is not at a member knows nothing but its queue. -/
theorem OrderlyAt.resume {p' : Phase} (h : OrderlyAt (some p) w) (hp : p.between = false)
    (hsight : p'.sight = none) (hnames : (p'.queued.map Prod.fst).Nodup)
    (hread : ∀ e ∈ p'.queued, w.lastRank e.1 = e.2) : OrderlyAt (some p') w where
  names := by
    rintro _ ⟨⟩
    exact hnames
  read := by
    rintro _ ⟨⟩
    exact hread
  sight := by
    rintro _ ⟨⟩ m r heq
    rw [hsight] at heq
    cases heq
  stored m r hstored _ := by
    refine h.stored m r hstored ?_
    rintro _ ⟨⟩ hbetween
    rw [hp] at hbetween
    cases hbetween
  ascents := h.ascents

/-- The run ends. -/
theorem OrderlyAt.leave (h : OrderlyAt (some p) w) (hp : p.between = false) : OrderlyAt none w where
  names := nofun
  read := nofun
  sight := nofun
  stored m r hstored _ := by
    refine h.stored m r hstored ?_
    rintro _ ⟨⟩ hbetween
    rw [hp] at hbetween
    cases hbetween
  ascents := h.ascents

/-- The members of a tenant, as they are read. -/
theorem OrderlyAt.enter (h : OrderlyAt (some (.tenants (t :: rest))) w) :
    OrderlyAt (some (.members t (w.activeMembers t) rest)) w := by
  refine h.resume rfl rfl ?_ ?_
  · have hnames : (w.activeMembers t).map Prod.fst =
        (w.registry.memberships.rows.filter fun m =>
          m.tenantId = t ∧ m.status = .active).map (·.id) := by
      simp [Notifier.activeMembers, Function.comp_def]
    exact hnames ▸ w.registry.memberships.keys_nodup.sublist (List.filter_sublist.map _)
  · intro e he
    obtain ⟨m, _, rfl⟩ := List.mem_map.mp he
    rfl

theorem OrderlyAt.resolve {tier : Option Tier}
    (h : OrderlyAt (some (.members t ((m, last) :: queue) rest)) w) :
    OrderlyAt (some (.resolved t m last tier queue rest)) (w.record (.saw m (currentSort tier))) where
  names := by
    rintro _ ⟨⟩
    exact h.names (.members t ((m, last) :: queue) rest) rfl
  read := by
    rintro _ ⟨⟩
    exact h.read (.members t ((m, last) :: queue) rest) rfl
  sight := by
    rintro _ ⟨⟩ m' r heq
    cases heq
    exact settled_saw w.events m (currentSort tier)
  stored m' r hstored _ := by
    refine Settled.saw (h.stored m' r hstored ?_) m (currentSort tier)
    rintro _ ⟨⟩
    exact nofun
  ascents := h.ascents.saw m (currentSort tier)

/-- The stored rank of the member is still the one read, and the new one is above it. -/
theorem OrderlyAt.notify {tier : Tier} {l : Int}
    (h : OrderlyAt (some (.resolved t m (some l) (some tier) queue rest)) w)
    (hlt : l < tier.sortOrder) :
    OrderlyAt (some (.notified t m (some l) tier queue rest)) (w.record (.notified m tier)) where
  names := by
    rintro _ ⟨⟩
    exact h.names (.resolved t m (some l) (some tier) queue rest) rfl
  read := by
    rintro _ ⟨⟩
    exact h.read (.resolved t m (some l) (some tier) queue rest) rfl
  sight := by
    rintro _ ⟨⟩ m' r heq
    cases heq
    exact (h.sight _ rfl m _ rfl).notified fun _ => le_rfl
  stored m' r hstored hother := by
    have hsettled : Settled w.events m' r := by
      refine h.stored m' r hstored ?_
      rintro _ ⟨⟩
      exact nofun
    refine hsettled.notified fun heq => ?_
    cases heq
    exact absurd rfl (hother _ rfl rfl tier.sortOrder)
  ascents := by
    have hstored : w.lastRank m = some l := h.read _ rfl (m, some l) List.mem_cons_self
    have hsettled : Settled w.events m l := by
      refine h.stored m l hstored ?_
      rintro _ ⟨⟩
      exact nofun
    exact h.ascents.notified hsettled hlt

/-- The run leaves a member whose stored rank is the one found. -/
theorem OrderlyAt.pass (h : OrderlyAt (some p) w) (hp : p.between = false)
    (hqueue : p.queued = (m, last) :: queue) : OrderlyAt (some (.members t queue rest)) w := by
  have hnames := h.names p rfl
  have hread := h.read p rfl
  rw [hqueue] at hnames hread
  exact h.resume hp rfl (List.nodup_cons.mp hnames).2
    fun e he => hread e (List.mem_cons_of_mem _ he)

/-- The rank found is stored: it is known of the member, and the queue names no other. -/
theorem OrderlyAt.write (h : OrderlyAt (some p) w) (hsight : p.sight = some (m, s))
    (hqueue : p.queued = (m, last) :: queue) :
    OrderlyAt (some (.members t queue rest)) (w.write m s) := by
  have hnames := h.names p rfl
  have hread := h.read p rfl
  rw [hqueue] at hnames hread
  obtain ⟨hfresh, hnodup⟩ := List.nodup_cons.mp hnames
  refine ⟨?_, ?_, ?_, ?_, h.ascents⟩
  · rintro _ ⟨⟩
    exact hnodup
  · rintro _ ⟨⟩ e he
    have hne : e.1 ≠ m := fun heq => hfresh (List.mem_map.mpr ⟨e, he, heq⟩)
    exact (Function.update_of_ne hne _ _).trans (hread e (List.mem_cons_of_mem _ he))
  · rintro _ ⟨⟩
    exact nofun
  · intro m' r hstored _
    by_cases heq : m' = m
    · subst heq
      have hr : some s = some r := by simpa [Notifier.write] using hstored
      cases hr
      exact h.sight p rfl m' s hsight
    · have hold : w.lastRank m' = some r := by
        simpa [Notifier.write, Function.update_of_ne heq] using hstored
      refine h.stored m' r hold ?_
      rintro _ ⟨⟩ _ s' hs'
      rw [hsight] at hs'
      cases hs'
      exact heq rfl

/-- Each statement of the one run keeps the invariant. -/
theorem orderlyAt_advance (h : OrderlyAt (some p) w) :
    OrderlyAt (w.advance p).1 (w.advance p).2 := by
  cases p with
  | tenants tenants =>
      cases tenants with
      | nil => exact h.leave rfl
      | cons t rest => exact h.enter
  | members t queue rest =>
      cases queue with
      | nil => exact h.resume rfl rfl List.nodup_nil nofun
      | cons e queue =>
          obtain ⟨m, last⟩ := e
          exact h.resolve
  | resolved t m last tier queue rest =>
      cases last with
      | none => exact h.write rfl rfl
      | some l =>
          cases tier with
          | none =>
              unfold Notifier.advance
              simp only
              split_ifs
              · exact h.write rfl rfl
              · exact h.pass rfl rfl
          | some reached =>
              unfold Notifier.advance
              simp only
              split_ifs with hup hmoved
              · exact h.notify hup.1
              · exact h.write rfl rfl
              · exact h.pass rfl rfl
  | notified t m last tier queue rest => exact h.write rfl rfl

end Advance

/-! ## Runs -/

def Orderly (w : Notifier) : Prop := ∃ phase : Option Phase, w.runs = phase.toList ∧ OrderlyAt phase w

variable {w : Notifier}

/-- The runs themselves and the tables of other services are not part of what is known. -/
theorem OrderlyAt.of_eq {phase : Option Phase} {w' : Notifier} (h : OrderlyAt phase w)
    (hlast : w'.lastRank = w.lastRank) (hevents : w'.events = w.events) : OrderlyAt phase w' := by
  refine ⟨h.names, ?_, ?_, ?_, ?_⟩
  · rw [hlast]
    exact h.read
  · rw [hevents]
    exact h.sight
  · rw [hlast, hevents]
    exact h.stored
  · rw [hevents]
    exact h.ascents

theorem orderly_step (step : RankUpStep) (w : Notifier) (hallowed : OneAtATime step w)
    (h : Orderly w) : Orderly (step.apply w) := by
  obtain ⟨phase, hruns, hat⟩ := h
  cases step with
  | start =>
      have hnone : w.runs = [] := hallowed
      have hphase : phase = none := by
        rw [hnone] at hruns
        cases phase with
        | none => rfl
        | some p => cases hruns
      subst hphase
      refine ⟨some (.tenants (w.registry.tenants.rows.map (·.id))), ?_, ?_⟩
      · simp [RankUpStep.apply, hnone]
      · refine ⟨?_, ?_, ?_, fun m r hstored _ => hat.stored m r hstored nofun, hat.ascents⟩
        · rintro _ ⟨⟩
          exact List.nodup_nil
        · rintro _ ⟨⟩
          exact nofun
        · rintro _ ⟨⟩
          exact nofun
  | advance i =>
      cases phase with
      | none =>
          exact ⟨none, by simp [RankUpStep.apply, hruns], by simpa [RankUpStep.apply, hruns] using hat⟩
      | some p =>
          cases i with
          | succ i =>
              exact ⟨some p, by simp [RankUpStep.apply, hruns],
                by simpa [RankUpStep.apply, hruns] using hat⟩
          | zero =>
              have hget : w.runs[0]? = some p := by simp [hruns]
              have hnext := orderlyAt_advance hat
              simp only [RankUpStep.apply, hget]
              cases hadv : w.advance p with
              | mk next w' =>
                  rw [hadv] at hnext
                  cases next with
                  | none => exact ⟨none, by simp [hruns], hnext.of_eq rfl rfl⟩
                  | some p' => exact ⟨some p', by simp [hruns], hnext.of_eq rfl rfl⟩
  | breakOff i =>
      cases phase with
      | none => exact ⟨none, by simp [RankUpStep.apply, hruns], hat.of_eq rfl rfl⟩
      | some p =>
          cases i with
          | zero =>
              have hget : w.runs[0]? = some p := by simp [hruns]
              have hleft := hat.leave (hallowed p hget)
              exact ⟨none, by simp [RankUpStep.apply, hruns], hleft.of_eq rfl rfl⟩
          | succ i => exact ⟨some p, by simp [RankUpStep.apply, hruns], hat.of_eq rfl rfl⟩
  | change registry rows => exact ⟨phase, hruns, hat.of_eq rfl rfl⟩

theorem orderly_idle (hruns : w.runs = []) (hevents : w.events = []) : Orderly w := by
  refine ⟨none, hruns, nofun, nofun, nofun, fun m r _ _ => ?_, ?_⟩
  · rw [hevents]
    exact Answered.nil
  · rw [hevents]
    intro before m t after heq
    cases before <;> cases heq

/-- Runs that follow one another notify each ascent at most once. -/
theorem ascentsOnce_run (hruns : w.runs = []) (hevents : w.events = []) {steps : List RankUpStep}
    (h : Throughout RankUpStep.apply OneAtATime steps w) :
    AscentsOnce (run RankUpStep.apply steps w).events := by
  obtain ⟨_, _, hat⟩ := Throughout.invariant orderly_step h (orderly_idle hruns hevents)
  exact hat.ascents

/-- What is displayed is what is paid for; growth never leads to a lower place, and to a lower rate
only where the ladder itself pays less higher up; runs that follow one another notify each ascent
at most once. -/
theorem ranks_follow_ladder (percent : Int → Int → Int) :
    (∀ tiers size earned, displayedTier tiers size earned = highestTier tiers size earned) ∧
      (∀ registry rows sales tenantId membershipId view,
        memberRank percent registry rows sales tenantId membershipId = .ok view →
          view.current = (resolveTier registry rows tenantId membershipId).map Tier.name ∧
            view.overrideBps = overrideBpsFor registry rows tenantId membershipId) ∧
      (∀ steps tenantId tiers tiers',
        ReadsAs (run LadderStep.apply steps Table.empty) tenantId tiers →
          ReadsAs (run LadderStep.apply steps Table.empty) tenantId tiers' →
            GrowthKeepsPlace tiers tiers' ∧
              (GrowthKeepsRate tiers tiers' ↔ PaysUpward tiers tiers')) ∧
      ∀ w : Notifier, w.runs = [] → w.events = [] → ∀ steps,
        Throughout RankUpStep.apply OneAtATime steps w →
          AscentsOnce (run RankUpStep.apply steps w).events := by
  refine ⟨displayedTier_eq, fun _ _ _ _ _ _ h => memberRank_displays h, ?_, ?_⟩
  · intro steps tenantId tiers tiers' h h'
    have hperm := h.perm h'
    have haccepted := h.accepted (accepted_run steps nofun)
    exact ⟨growthKeepsPlace hperm h'.sorted,
      growthKeepsRate_iff hperm fun t ht => (haccepted t ht).overrideBps.1⟩
  · intro w hruns hevents steps h
    exact ascentsOnce_run hruns hevents h

/-! ## A ladder that pays less higher up, and two runs at once -/

namespace Demo

def bronze : Tier := ⟨"Bronze", 0, 0, 0, 500⟩

def silver : Tier := ⟨"Silver", 1, 1, 0, 100⟩

def inputOf (t : Tier) : TierInput :=
  ⟨t.name, t.sortOrder, t.minTeam, t.minEarningsCents, some t.overrideBps⟩

def creating : List LadderStep := [.create 1 21 (inputOf bronze), .create 1 22 (inputOf silver)]

/-- The sponsor of one member, last seen as Bronze. -/
def notifier : Notifier where
  registry := { Engine.Demo.registry with rankTiers := run LadderStep.apply creating Table.empty }
  rows := []
  lastRank _ := some 0
  runs := []
  events := []

/-- Both runs read the sponsor before either writes. -/
def overlapping : List RankUpStep :=
  [.start, .start, .advance 0, .advance 0, .advance 0, .advance 0,
    .advance 1, .advance 1, .advance 1, .advance 1, .advance 0, .advance 1]

theorem readsAs_creating :
    ReadsAs (run LadderStep.apply creating Table.empty) 1 [bronze, silver] := by
  have hrows : (run LadderStep.apply creating Table.empty).rows =
      [⟨21, 1, "Bronze", 0, 0, 0, 500⟩, ⟨22, 1, "Silver", 1, 1, 0, 100⟩] := by decide
  unfold ReadsAs
  rw [hrows]
  decide

theorem events_overlapping : (run RankUpStep.apply overlapping notifier).events =
    [.saw 2 0, .saw 3 1, .saw 2 0, .saw 3 1, .notified 3 silver, .notified 3 silver] := by
  decide

end Demo

/-- A member who recruits loses four of five percent, and a member who reaches Silver once is
notified of it twice. -/
theorem not_ranks_as_promised :
    (ReadsAs (run LadderStep.apply Demo.creating Table.empty) 1 [Demo.bronze, Demo.silver] ∧
        ¬ GrowthKeepsRate [Demo.bronze, Demo.silver] [Demo.bronze, Demo.silver]) ∧
      ¬ AscentsOnce (run RankUpStep.apply Demo.overlapping Demo.notifier).events := by
  refine ⟨⟨Demo.readsAs_creating, fun h => ?_⟩, fun h => ?_⟩
  · have hrate := h 0 1 0 0 (by decide) le_rfl
    exact absurd hrate (by decide)
  · rw [Demo.events_overlapping] at h
    have hanswered := h [.saw 2 0, .saw 3 1, .saw 2 0, .saw 3 1, .notified 3 Demo.silver] 3
      Demo.silver [] rfl
    obtain ⟨y, hy, _⟩ := hanswered [.saw 2 0, .saw 3 1, .saw 2 0, .saw 3 1] (.notified 3 Demo.silver)
      [] rfl ⟨Demo.silver, rfl, le_rfl⟩
    cases hy

end Refearn.Ranks
