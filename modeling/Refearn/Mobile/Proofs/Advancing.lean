import Refearn.Mobile.Proofs.Lineage
/-!
# Runs of the session store

Each step keeps what may be in the store, as long as nobody takes the tokens of a refresh under
way to another workspace and the refresh gets to write its new ones.
-/

namespace Refearn.Mobile

open Support
open Web (Session)

/-! ## What a step changes -/

section Step

variable {read : ReadLineage} {w w' : World}

theorem flightSound_mono {flight : RefreshFlight} (h : w.FlightSound flight)
    (hrecent : ∀ t, w.Recent t → w'.Recent t)
    (hinit : w.store.cacheInitialized = true → w'.store.cacheInitialized = true) :
    w'.FlightSound flight := by
  unfold World.FlightSound at h ⊢
  split at h
  · exact fun s hs => ⟨hrecent _ (h s hs).1, hinit (h s hs).2⟩
  · exact ⟨hrecent _ h.1, hinit h.2⟩
  · exact ⟨hrecent _ h.1, hinit h.2⟩
  · exact ⟨hrecent _ h.1, h.2⟩
  · exact ⟨hrecent _ h.1, h.2⟩
  · exact ⟨hrecent _ h.1, h.2⟩
  · exact ⟨hrecent _ h.1, h.2⟩
  · exact ⟨hrecent _ h.1, h.2⟩
  all_goals exact trivial

/-- The queue and the generation do not matter. -/
theorem Advancing.congr (h : Advancing w) (hcached : w'.store.cached = w.store.cached)
    (hadvancement : w'.store.tokenAdvancement = w.store.tokenAdvancement)
    (hinit : w'.store.cacheInitialized = w.store.cacheInitialized)
    (hrunning : w'.running = w.running) (hflight : w'.refreshInFlight = w.refreshInFlight)
    (hissued : w'.issued = w.issued) (hanswered : w'.answered = w.answered)
    (hresent : w'.resent = w.resent) : Advancing w' where
  store := (h.store.mono hflight (fun t => (recent_congr hissued hanswered t).mpr)
    hanswered).with_store hcached hadvancement hinit
  flight f hf := by
    exact flightSound_mono (h.flight f (hflight ▸ hf))
      (fun t => (recent_congr hissued hanswered t).mpr) fun htrue => hinit.trans htrue
  running r hr := by
    obtain ⟨hseen, hawaited⟩ := h.running r (hrunning ▸ hr)
    refine ⟨?_, fun hof => hflight ▸ hawaited hof⟩
    unfold Store.Seen at hseen ⊢
    rw [hcached]
    exact hseen
  live t ht := by
    rw [spentTokens_congr hanswered]
    exact h.live t ((recent_congr hissued hanswered t).mp ht)
  known r hr := by
    rw [hissued]
    exact h.known r (hanswered ▸ hr)
  resent := hresent.trans h.resent

theorem Advancing.enqueue (h : Advancing w) (operation : Operation) :
    Advancing (w.enqueue operation) :=
  h.congr rfl rfl rfl rfl rfl rfl rfl rfl

theorem Advancing.advance (h : Advancing w) : Advancing w.advance :=
  h.congr rfl rfl rfl rfl rfl rfl rfl rfl

theorem Advancing.enqueueCall (h : Advancing w) (call : Call) : Advancing (enqueueCall w call) := by
  unfold Mobile.enqueueCall
  cases call with
  | saveSessionIfCurrent expected next =>
      simp only
      split_ifs
      · exact h.advance.enqueue _
      · exact h
  | clearSessionIfCurrent expected =>
      simp only
      split_ifs
      · exact h.advance.enqueue _
      · exact h
  | mergeSessionTokens owner tokens => exact h.enqueue _

/-! ### The queue -/

/-- Another store, with nothing running. -/
theorem Advancing.with_store (h : Advancing w) (hidle : w.running = none) {store : Store}
    (hstore : StoreSound w store)
    (hinit : w.store.cacheInitialized = true → store.cacheInitialized = true) :
    Advancing { w with store := store } where
  store := hstore.mono rfl (fun _ ht => ht) rfl
  flight f hf := by
    exact flightSound_mono (h.flight f hf) (fun _ ht => ht) hinit
  running r hr := by rw [show w.running = some r from hr] at hidle; cases hidle
  live := h.live
  known := h.known
  resent := h.resent

theorem RefreshFlight.Awaits.waiting {flight : RefreshFlight} {await : Await}
    (h : flight.Awaits await) : flight.phase.isWaiting = true := by
  unfold RefreshFlight.Awaits at h
  cases await with
  | saving expected next => rw [h]; rfl
  | discarding =>
      obtain ⟨next, hphase⟩ := h
      rw [hphase]
      rfl
  | clearing => rw [h]; rfl
  | merging owner merged => rw [h]; rfl

theorem awaits_of_call {flight : RefreshFlight} {call : Call} {await : Await}
    (hcall : flight.call = some call) (h : call.LeadsTo await) : flight.Awaits await := by
  unfold RefreshFlight.call at hcall
  split at hcall
  · next next hphase =>
      cases hcall
      cases h
      exact hphase
  · next tokens hphase =>
      cases hcall
      obtain ⟨merged, rfl, rfl⟩ := h
      exact hphase
  · next hphase =>
      cases hcall
      cases h
      exact hphase
  all_goals cases hcall

/-- What comes back to a refresh that waits leaves it knowing as much. -/
theorem flightSound_receive {flight : RefreshFlight} (h : w.FlightSound flight)
    (hwaiting : flight.phase.isWaiting = true) (outcome : Outcome)
    (hissued : w'.issued = w.issued) (hanswered : w'.answered = w.answered) :
    w'.FlightSound (flight.receive outcome) := by
  obtain ⟨owner, generation, phase⟩ := flight
  unfold World.FlightSound at h ⊢
  cases phase with
  | saving next =>
      have hnext := (recent_congr hissued hanswered _).mpr h.1
      cases outcome with
      | saved => exact trivial
      | unsaved => exact ⟨hnext, h.2⟩
      | cleared => exact ⟨hnext, h.2⟩
      | merge attempt => exact ⟨hnext, h.2⟩
  | merging tokens =>
      have htokens := (recent_congr hissued hanswered _).mpr h.1
      cases outcome with
      | saved => exact ⟨htokens, h.2⟩
      | unsaved => exact ⟨htokens, h.2⟩
      | cleared => exact ⟨htokens, h.2⟩
      | merge attempt => exact ⟨htokens, h.2⟩
  | clearing => cases outcome <;> exact trivial
  | loading | loaded snapshot | current | sent | answered next | unsaved tokens
  | attempted tokens attempt | done => cases hwaiting

theorem owner_receive (flight : RefreshFlight) (outcome : Outcome) :
    (flight.receive outcome).owner = flight.owner := by
  unfold RefreshFlight.receive
  split <;> rfl

/-- A call begins or goes on; if it is one of the refresh under way and ends, that stays
pending or its tokens have gone. -/
theorem Advancing.proceed (h : Advancing w) {ofRefresh : Bool} {result : Store × Progress}
    (hstore : StoreSound w result.1)
    (hinit : w.store.cacheInitialized = true → result.1.cacheInitialized = true)
    (hseen : ∀ await generation, result.2 = .awaits await generation → result.1.Seen await)
    (hflight : ofRefresh = true → ∃ flight, w.refreshInFlight = some flight ∧
      flight.phase.isWaiting = true ∧
        (∀ await generation, result.2 = .awaits await generation → flight.Awaits await) ∧
          ∀ outcome, result.2 = .ended outcome →
            (flight.receive outcome).phase.isPending = true ∨
              ∀ c, result.1.cached = some c → w.Recent (tokenPairOf c)) :
    Advancing (w.proceed ofRefresh result) := by
  obtain ⟨store, progress⟩ := result
  unfold World.proceed
  cases progress with
  | awaits await generation =>
      constructor
      · exact hstore.mono rfl (fun _ ht => ht) rfl
      · exact fun f hf => flightSound_mono (h.flight f hf) (fun _ ht => ht) hinit
      · intro r hr
        cases hr
        refine ⟨hseen await generation rfl, fun hof => ?_⟩
        obtain ⟨f, hf, -, hawaits, -⟩ := hflight hof
        exact ⟨f, hf, hawaits await generation rfl⟩
      · exact h.live
      · exact h.known
      · exact h.resent
  | ended outcome =>
      cases ofRefresh with
      | false =>
          exact ⟨hstore.mono rfl (fun _ ht => ht) rfl,
            fun f hf => flightSound_mono (h.flight f hf) (fun _ ht => ht) hinit,
            fun r hr => (nomatch hr), h.live, h.known, h.resent⟩
      | true =>
          obtain ⟨flight, hf, hwaiting, -, hended⟩ := hflight rfl
          simp only [hf, Option.map_some, ite_true]
          constructor
          · rcases hended outcome rfl with hpending | hrecent
            · exact hstore.with_flight hf rfl (owner_receive flight outcome)
                (fun _ => hpending) rfl rfl
            · exact hstore.of_recent hrecent rfl rfl
          · intro f hf'
            cases hf'
            exact flightSound_receive (h.flight flight hf) hwaiting outcome rfl rfl
          · exact fun r hr => nomatch hr
          · exact h.live
          · exact h.known
          · exact h.resent

/-- The refresh under way goes on without the store. -/
theorem Advancing.with_flight (h : Advancing w) {flight flight' : RefreshFlight}
    (hf : w.refreshInFlight = some flight) (hfree : flight.phase.isWaiting = false)
    (howner : flight'.owner = flight.owner) (hsound : w.FlightSound flight')
    (hpending : (flight.phase.isPending = true → flight'.phase.isPending = true) ∨
      ∀ c, w.store.cached = some c → w.Recent (tokenPairOf c)) :
    Advancing { w with refreshInFlight := some flight' } where
  store := by
    rcases hpending with hpending | hrecent
    · exact h.store.with_flight hf rfl howner hpending rfl rfl
    · exact h.store.of_recent hrecent rfl rfl
  flight f hf' := by
    cases hf'
    exact flightSound_mono hsound (fun _ ht => ht) id
  running r hr := by
    obtain ⟨hseen, hawaited⟩ := h.running r hr
    refine ⟨hseen, fun hof => ?_⟩
    obtain ⟨f, hf', hawaits⟩ := hawaited hof
    rw [hf] at hf'
    cases hf'
    rw [hawaits.waiting] at hfree
    cases hfree
  live := h.live
  known := h.known
  resent := h.resent

theorem Advancing.withPhase (h : Advancing w) {flight : RefreshFlight} (phase : Phase)
    (hf : w.refreshInFlight = some flight) (hfree : flight.phase.isWaiting = false)
    (hsound : w.FlightSound { flight with phase := phase })
    (hpending : (flight.phase.isPending = true → phase.isPending = true) ∨
      ∀ c, w.store.cached = some c → w.Recent (tokenPairOf c)) :
    Advancing (w.withPhase flight phase) :=
  h.with_flight hf hfree rfl hsound hpending

/-- Nothing pending, nothing replaced. -/
theorem StoreSound.recent_of_idle {store : Store} (h : StoreSound w store)
    (hidle : ∀ f, w.refreshInFlight = some f → f.phase.isPending = false) {c : Session}
    (hc : store.cached = some c) : w.Recent (tokenPairOf c) := by
  refine (h.cached c hc).resolve_right fun hreplaces => ?_
  obtain ⟨f, hf, hpending, -⟩ := World.replaces_iff.mp hreplaces
  rw [hidle f hf] at hpending
  cases hpending

theorem load_keeps_initialized (io : StorageOutcome) {store : Store}
    (h : store.cacheInitialized = true) :
    (loadSessionWithinQueue io store).cacheInitialized = true := by
  rw [load_of_initialized io h]
  exact h

/-- A refresh has loaded the session. -/
theorem Advancing.loaded (h : Advancing w) (hidle : w.running = none) {flight : RefreshFlight}
    (hf : w.refreshInFlight = some flight) (hphase : flight.phase = .loading)
    (io : StorageOutcome) (generation : Nat) :
    Advancing ({ w with store := loadSessionWithinQueue io w.store }.withPhase flight
      (.loaded ⟨(loadSessionWithinQueue io w.store).cached, generation⟩)) := by
  have hload := h.store.load io
  have hrecent : ∀ c, (loadSessionWithinQueue io w.store).cached = some c →
      w.Recent (tokenPairOf c) := by
    intro c hc
    refine hload.recent_of_idle (fun f hf' => ?_) hc
    rw [hf] at hf'
    cases hf'
    rw [hphase]
    rfl
  constructor
  · exact hload.of_recent hrecent rfl rfl
  · intro f hf'
    cases hf'
    intro c hc
    refine ⟨hrecent c hc, ?_⟩
    cases hinit : (loadSessionWithinQueue io w.store).cacheInitialized with
    | true => exact hinit
    | false =>
        have hnone := (hload.initialized hinit).1
        rw [show (loadSessionWithinQueue io w.store).cached = some c from hc] at hnone
        cases hnone
  · intro r hr
    rw [show w.running = some r from hr] at hidle
    cases hidle
  · exact h.live
  · exact h.known
  · exact h.resent

theorem beginCall_save_ended {io : StorageOutcome} {expected : SessionSnapshot} {next : Session}
    {generation : Nat} {store : Store} {outcome : Outcome}
    (h : (beginCall read io (.saveSessionIfCurrent expected next) generation store).2 =
      .ended outcome) : outcome = .unsaved := by
  unfold beginCall at h
  simp only at h
  split_ifs at h
  cases h
  rfl

/-- A call of the refresh under way that ends at once leaves it pending, or its tokens have
gone. -/
theorem Advancing.ended_at_once (h : Advancing w) {flight : RefreshFlight} {call : Call}
    {generation : Nat} {outcome : Outcome} (hf : w.refreshInFlight = some flight)
    (hcall : flight.call = some call) (hop : w.BeginsOrderly read (.ofRefresh generation))
    (io : StorageOutcome)
    (hended : (beginCall read io call generation w.store).2 = .ended outcome) :
    (flight.receive outcome).phase.isPending = true ∨
      ∀ c, (beginCall read io call generation w.store).1.cached = some c →
        w.Recent (tokenPairOf c) := by
  have hload := h.store.load io
  have hsound := h.flight flight hf
  rw [(beginCall_loads read io call generation w.store).1]
  obtain ⟨owner, ownGeneration, phase⟩ := flight
  cases phase with
  | saving next =>
      cases hcall
      rw [beginCall_save_ended hended]
      exact .inl rfl
  | merging tokens =>
      cases hcall
      rcases beginCall_merge_ended hended with rfl | hgone
      · exact .inl rfl
      · refine .inr fun c hc => ?_
        rcases hload.cached c hc with hrecent | hreplaces
        · exact hrecent
        · obtain ⟨f, hf', -, -, hpair, hidentity⟩ := World.replaces_iff.mp hreplaces
          rw [hf] at hf'
          cases hf'
          rcases hgone c hc with htokens | hother | hne
          · rw [htokens]
            exact hsound.1
          · rw [hother] at hidentity
            cases hidentity
          · exact absurd hpair hne
  | clearing =>
      cases hcall
      have hgive := hop _ (by rw [hf]; exact List.mem_singleton_self _) rfl
      cases hinit : w.store.cacheInitialized with
      | false => exact .inr fun c _ => recent_of_unanswered (h.store.initialized hinit).2 _
      | true =>
          rcases hgive with hundisturbed | hrid
          · simp only [Bool.and_eq_true, decide_eq_true_eq] at hundisturbed
            rw [beginCall_clear hinit hundisturbed.1 hundisturbed.2] at hended
            cases hended
          · rw [load_of_initialized io hinit]
            exact .inr fun c hc => h.store.recent_of_rid rfl hf hrid hc
  | loading | loaded snapshot | current | sent | answered next | unsaved tokens
  | attempted tokens attempt | done => cases hcall

theorem waiting_of_call {flight : RefreshFlight} {call : Call} (h : flight.call = some call) :
    flight.phase.isWaiting = true := by
  obtain ⟨owner, generation, phase⟩ := flight
  cases phase <;> first | rfl | cases h

/-- The operation that the refresh under way waits for begins. -/
theorem Advancing.beginOfRefresh (h : Advancing w) (hidle : w.running = none)
    {generation : Nat} (hop : w.BeginsOrderly read (.ofRefresh generation))
    (io : StorageOutcome) : Advancing (beginOfRefresh read io generation w) := by
  unfold Mobile.beginOfRefresh
  split
  · exact h
  · next flight hf =>
      split
      · next hphase => exact h.loaded hidle hf hphase io generation
      · next call hcall _ =>
          refine h.proceed (h.store.beginCall io call generation) (fun hinit => ?_)
            (fun await g hawaits => (beginCall_awaits hawaits).1) fun _ => ⟨flight, hf,
              waiting_of_call hcall,
              fun await g hawaits => awaits_of_call hcall (beginCall_awaits hawaits).2,
              fun outcome hended => h.ended_at_once hf hcall hop io hended⟩
          rw [(beginCall_loads read io call generation w.store).2]
          exact load_keeps_initialized io hinit
      · exact h

theorem Advancing.beginOperation (h : Advancing w) (hidle : w.running = none)
    {operation : Operation} (hop : w.BeginsOrderly read operation) (io : StorageOutcome) :
    Advancing (beginOperation read io operation w) := by
  cases operation with
  | loadSession =>
      exact h.with_store hidle (h.store.load io) (load_keeps_initialized io)
  | saveSession session =>
      refine h.with_store hidle (h.store.save hop io) fun _ => ?_
      unfold saveSessionWithinQueue
      simp only
      split_ifs
      · rfl
      · rw [cacheInitialized_removeItem]
        rfl
  | clearSession =>
      refine h.with_store hidle ((StoreSound.forget w w.store).removeItem io) fun _ => ?_
      unfold clearSessionWithinQueue
      rw [cacheInitialized_removeItem]
      rfl
  | call call generation =>
      refine h.proceed (h.store.beginCall io call generation) (fun hinit => ?_)
        (fun await g hawaits => (beginCall_awaits hawaits).1) nofun
      rw [(beginCall_loads read io call generation w.store).2]
      exact load_keeps_initialized io hinit
  | ofRefresh generation => exact h.beginOfRefresh hidle hop io

theorem Advancing.begin (h : Advancing w) (io : StorageOutcome)
    (horderly : Orderly read (.begin io) w) : Advancing (begin read io w) := by
  unfold Mobile.begin
  split
  · next operation rest hidle hqueue =>
      have hop : w.BeginsOrderly read operation :=
        horderly hidle operation (by rw [hqueue]; exact List.mem_singleton_self _)
      have hrest : Advancing { w with sessionQueue := rest } :=
        h.congr rfl rfl rfl rfl rfl rfl rfl rfl
      exact hrest.beginOperation hidle (by cases operation <;> exact hop) io
  · exact h

/-! ### The storage answers -/

theorem settleCall_cached_removed (io : StorageOutcome) (generation : Nat) (store : Store) :
    (settleCall read io .clearing generation store).1.cached =
      if store.generation = generation then none else store.cached := by
  unfold settleCall Store.removeItem
  simp only
  split_ifs <;> rfl

theorem settleCall_keeps_initialized (io : StorageOutcome) (await : Await) (generation : Nat)
    {store : Store} (h : store.cacheInitialized = true) :
    (settleCall read io await generation store).1.cacheInitialized = true := by
  unfold settleCall
  cases await with
  | saving expected next =>
      simp only
      split_ifs <;> first | rfl | exact h
  | discarding =>
      simp only
      split_ifs
      · rfl
      · rw [cacheInitialized_removeItem]
        exact h
      · exact h
  | clearing =>
      simp only
      split_ifs
      · rfl
      · rw [cacheInitialized_removeItem]
        exact h
  | merging owner merged =>
      simp only
      split_ifs <;> first | rfl | exact h

/-- An operation of the refresh under way that ends leaves it pending, or its tokens have
gone. -/
theorem Advancing.ended (h : Advancing w) {running : Running} {flight : RefreshFlight} {outcome : Outcome} (hf : w.refreshInFlight = some flight)
    (hawaits : flight.Awaits running.await) (hof : running.ofRefresh = true) (io : StorageOutcome)
    (horderly : w.SettlesOrderly io running)
    (hended : (settleCall read io running.await running.generation w.store).2 = .ended outcome) :
    (flight.receive outcome).phase.isPending = true ∨
      ∀ c, (settleCall read io running.await running.generation w.store).1.cached = some c →
        w.Recent (tokenPairOf c) := by
  have hsound := h.flight flight hf
  obtain ⟨owner, ownGeneration, phase⟩ := flight
  obtain ⟨await, generation, ofRefresh⟩ := running
  cases await with
  | saving expected next =>
      obtain rfl : phase = .saving next := hawaits
      unfold settleCall at hended ⊢
      simp only at hended ⊢
      split_ifs at hended ⊢
      · refine .inr fun c hc => ?_
        cases hc
        exact hsound.1
      · cases hended
        exact .inl rfl
      · cases hended
        exact .inl rfl
  | discarding =>
      obtain ⟨next, hphase⟩ := hawaits
      obtain rfl : phase = .saving next := hphase
      unfold settleCall at hended
      simp only at hended
      split_ifs at hended <;> cases hended <;> exact .inl rfl
  | clearing =>
      rw [settleCall_cached_removed]
      rcases horderly hof _ (by rw [hf]; exact List.mem_singleton_self _) with hsame | hrid
      · rw [if_pos (by simpa using hsame)]
        exact .inr nofun
      · split_ifs
        · exact .inr nofun
        · exact .inr fun c hc => h.store.recent_of_rid rfl hf hrid hc
  | merging mergeOwner merged =>
      obtain rfl : phase = .merging (tokenPairOf merged) := hawaits
      unfold settleCall at hended ⊢
      simp only at hended ⊢
      split_ifs at hended ⊢ with hset hgeneration hgeneration
      · refine .inr fun c hc => ?_
        cases hc
        exact hsound.1
      · cases hended
        exact .inl rfl
      · -- a write that fails is one that is repeated
        cases hended
        rcases horderly.2 hof with hsucceeds | hchanged
        · exact absurd hsucceeds hset
        · exact absurd hgeneration hchanged
      · cases hended
        exact .inl rfl

/-- What the running operation writes may be in the store. -/
theorem Advancing.settled_store (h : Advancing w) {running : Running}
    (hrunning : w.running = some running) (io : StorageOutcome)
    (horderly : w.SettlesOrderly io running) :
    StoreSound w (settleCall read io running.await running.generation w.store).1 := by
  obtain ⟨hseen, hawaited⟩ := h.running running hrunning
  obtain ⟨await, generation, ofRefresh⟩ := running
  cases await with
  | saving expected next =>
      refine h.store.settleSaving hseen fun hset => ?_
      cases ofRefresh with
      | false =>
          refine (horderly rfl hset).imp_right fun ⟨hadmissible, hsame⟩ => ⟨hadmissible, ?_⟩
          obtain ⟨c, hc, heq⟩ := (Option.any_eq_true _ _).mp hsame
          exact ⟨c, hc, by simpa using heq⟩
      | true =>
          obtain ⟨flight, hf, hphase⟩ := hawaited rfl
          have hsound := h.flight flight hf
          unfold World.FlightSound at hsound
          rw [show flight.phase = .saving next from hphase] at hsound
          exact .inl hsound.1
  | discarding => exact (h.store.settleRemoval io generation).1
  | clearing => exact (h.store.settleRemoval io generation).2
  | merging owner merged =>
      refine h.store.settleMerging hseen fun hset => ?_
      cases ofRefresh with
      | false => exact horderly.1 rfl hset
      | true =>
          obtain ⟨flight, hf, hphase⟩ := hawaited rfl
          have hsound := h.flight flight hf
          unfold World.FlightSound at hsound
          rw [show flight.phase = .merging (tokenPairOf merged) from hphase] at hsound
          exact hsound.1

theorem Advancing.settle (h : Advancing w) (io : StorageOutcome)
    (horderly : Orderly read (.settle io) w) : Advancing (settle read io w) := by
  unfold Mobile.settle
  split
  · exact h
  · next running hrunning =>
      have hthis : w.SettlesOrderly io running :=
        horderly running (by rw [hrunning]; exact List.mem_singleton_self _)
      refine h.proceed (h.settled_store hrunning io hthis)
        (settleCall_keeps_initialized io running.await running.generation)
        (fun await g hawaits => ?_) fun hof => ?_
      · obtain ⟨rfl, -⟩ := settleCall_awaits hawaits
        exact trivial
      · obtain ⟨flight, hf, hawaits⟩ := (h.running running hrunning).awaited hof
        refine ⟨flight, hf, hawaits.waiting, fun await g hnext => ?_, fun outcome hended =>
          h.ended hf hawaits hof io hthis hended⟩
        obtain ⟨rfl, expected, next, heq⟩ := settleCall_awaits hnext
        rw [heq] at hawaits
        exact ⟨next, hawaits⟩

/-! ### The server and the refresh -/

theorem isFresh_iff {t : TokenPair} : w.isFresh t = true ↔
    t.refreshToken ∉ w.issued.map (·.refreshToken) ∧ t.refreshToken ∉ w.spentTokens := by
  unfold World.isFresh
  simp only [Bool.and_eq_true, decide_eq_true_eq]

/-- What is issued last is recent, and nothing else becomes so. -/
theorem recent_issued {t : TokenPair} (h : Advancing w) (hfresh : w.isFresh t = true)
    (hissued : w'.issued = t :: w.issued) (hanswered : w'.answered = w.answered) (u : TokenPair) :
    w'.Recent u ↔ w.answered = [] ∨ u = t ∨ w.Recent u := by
  have hne : ∀ r ∈ w.answered, t ≠ r.next := by
    intro r hr heq
    have hknown := List.mem_map_of_mem (f := TokenPair.refreshToken) (h.known r hr)
    rw [← heq] at hknown
    exact (isFresh_iff.mp hfresh).1 hknown
  unfold World.Recent
  rw [hissued, hanswered]
  constructor
  · intro hrecent
    by_cases hu : u = t
    · exact .inr (.inl hu)
    · refine .inr (.inr fun r hr => ?_)
      exact ((mem_issuedSince_cons (hne r hr)).mp (hrecent r hr)).resolve_left hu
  · intro hor r hr
    rw [mem_issuedSince_cons (hne r hr)]
    rcases hor with hnone | rfl | hrecent
    · rw [hnone] at hr
      exact absurd hr List.not_mem_nil
    · exact .inl rfl
    · exact .inr (hrecent r hr)

/-- The server hands out a pair. -/
theorem Advancing.issue (h : Advancing w) {t : TokenPair} (hfresh : w.isFresh t = true) :
    Advancing { w with issued := t :: w.issued } := by
  have hiff : ∀ u, World.Recent { w with issued := t :: w.issued } u ↔
      w.answered = [] ∨ u = t ∨ w.Recent u :=
    recent_issued h hfresh rfl rfl
  have hrecent : ∀ u, w.Recent u → World.Recent { w with issued := t :: w.issued } u :=
    fun u hu => (hiff u).mpr (.inr (.inr hu))
  constructor
  · exact h.store.mono rfl hrecent rfl
  · exact fun f hf => flightSound_mono (h.flight f hf) hrecent id
  · exact fun r hr => ⟨(h.running r hr).seen, (h.running r hr).awaited⟩
  · intro u hu
    rcases (hiff u).mp hu with hnone | rfl | hold
    · rw [World.spentTokens, hnone]
      exact List.not_mem_nil
    · exact (isFresh_iff.mp hfresh).2
    · exact h.live u hold
  · exact fun r hr => List.mem_cons_of_mem _ (h.known r hr)
  · exact h.resent

theorem Store.Follows.of_cached {store : Store} {flight : RefreshFlight} (h : store.Follows flight)
    {c : Session} (hc : store.cached = some c) :
    tokenPairOf c = tokenPairOf flight.owner ∧ sameSessionIdentity flight.owner c = true := by
  have hall := h.1
  rw [hc] at hall
  simpa using hall

theorem Store.Follows.of_advancement {store : Store} {flight : RefreshFlight}
    (h : store.Follows flight) {a : TokenAdvancement} (ha : store.tokenAdvancement = some a) :
    a.latestTokens = tokenPairOf flight.owner := by
  have hall := h.2
  rw [ha] at hall
  simpa using hall

/-- The server has answered the refresh: its tokens are spent, and those in the answer are the
only recent ones. -/
theorem Advancing.rotated (h : Advancing w) {flight : RefreshFlight} {t : TokenPair}
    {body : Option Session} (hf : w.refreshInFlight = some flight) (hphase : flight.phase = .sent)
    (hfollows : w.store.Follows flight) (hfresh : w.isFresh t = true)
    (hne : t.refreshToken ≠ flight.owner.refreshToken)
    (hbody : body.all (fun s => tokenPairOf s = t) = true) :
    Advancing ({ w with
      answered := ⟨tokenPairOf flight.owner, t⟩ :: w.answered
      issued := t :: w.issued }.withPhase flight
        (.answered (acceptedCandidate flight.owner body))) := by
  have hinit : w.store.cacheInitialized = true := by
    have hsound := h.flight flight hf
    unfold World.FlightSound at hsound
    rw [hphase] at hsound
    exact hsound.2
  have hrecent : World.Recent ({ w with
      answered := ⟨tokenPairOf flight.owner, t⟩ :: w.answered
      issued := t :: w.issued }.withPhase flight
        (.answered (acceptedCandidate flight.owner body))) t := by
    intro r hr
    rcases List.mem_cons.mp hr with rfl | hold
    · exact mem_issuedSince_self _ t
    · refine (mem_issuedSince_cons fun heq => ?_).mpr (.inl rfl)
      have hknown := List.mem_map_of_mem (f := TokenPair.refreshToken) (h.known r hold)
      rw [← heq] at hknown
      exact (isFresh_iff.mp hfresh).1 hknown
  constructor
  · refine ⟨fun c hc => .inr ?_, fun a ha => ?_, fun hfalse => ?_⟩
    · obtain ⟨hpair, hidentity⟩ := hfollows.of_cached hc
      exact World.replaces_iff.mpr ⟨_, rfl, rfl, List.mem_cons_self, hpair, hidentity⟩
    · obtain ⟨c, hc, hidentity, -⟩ := h.store.advancement a ha
      have hlatest := (hfollows.of_advancement ha).trans (hfollows.of_cached hc).1.symm
      exact ⟨c, hc, hidentity, .inr hlatest⟩
    · rw [show w.store.cacheInitialized = false from hfalse] at hinit
      cases hinit
  · intro f hf'
    cases hf'
    unfold World.FlightSound
    cases hcandidate : acceptedCandidate flight.owner body with
    | none => exact trivial
    | some next =>
        obtain ⟨hsome, -⟩ := Option.filter_eq_some_iff.mp hcandidate
        rw [hsome] at hbody
        have hpair : tokenPairOf next = t := by simpa using hbody
        refine ⟨?_, fun heq => hne ?_⟩
        · rw [hpair, ← hcandidate]
          exact hrecent
        · rw [← hpair, heq]
          rfl
  · intro r hr
    obtain ⟨hseen, hawaited⟩ := h.running r hr
    refine ⟨hseen, fun hof => ?_⟩
    obtain ⟨f, hf', hawaits⟩ := hawaited hof
    rw [hf] at hf'
    cases hf'
    have hwaiting := hawaits.waiting
    rw [hphase] at hwaiting
    cases hwaiting
  · intro u hu
    obtain rfl : u = t := mem_issuedSince_latest.mp (hu _ List.mem_cons_self)
    exact fun hmem => (List.mem_cons.mp hmem).elim hne (isFresh_iff.mp hfresh).2
  · intro r hr
    rcases List.mem_cons.mp hr with rfl | hold
    · exact List.mem_cons_self
    · exact List.mem_cons_of_mem _ (h.known r hold)
  · exact h.resent

theorem Advancing.serve (h : Advancing w) {answer : ServerAnswer}
    (horderly : Orderly read (.answer answer) w) : Advancing (serve answer w) := by
  unfold Mobile.serve
  split
  · exact h
  · next flight hf =>
      have hrefused : flight.phase = .sent → Advancing (w.withPhase flight (.answered none)) :=
        fun hphase => h.withPhase _ hf (by rw [hphase]; rfl) trivial
          (.inl fun hpending => by rw [hphase] at hpending; cases hpending)
      split
      · next tokens body hphase =>
          split_ifs with hguard
          · exact h.rotated hf hphase
              (horderly flight (by rw [hf]; exact List.mem_singleton_self _) hphase)
              hguard.2.1 hguard.2.2.1 hguard.2.2.2
          · exact hrefused hphase
      · next hphase => exact hrefused hphase
      · exact h

theorem send_of_live {token : String} (hlive : token ∉ w.spentTokens) : w.send token = w := by
  unfold World.send
  exact if_neg hlive

theorem Advancing.attemptMerge (h : Advancing w) {flight : RefreshFlight} {tokens : TokenPair}
    (hf : w.refreshInFlight = some flight) (hfree : flight.phase.isWaiting = false)
    (htokens : w.Recent tokens ∧ tokens ≠ tokenPairOf flight.owner) :
    Advancing (attemptMerge flight tokens w) :=
  (h.withPhase (.merging tokens) hf hfree htokens (.inl fun _ => rfl)).enqueue _

/-- The refresh under way goes on; it sends tokens that it has just found in the store. -/
theorem Advancing.resumeFlight (h : Advancing w) {flight : RefreshFlight}
    (hf : w.refreshInFlight = some flight) (hgive : flight.phase = .answered none →
      w.MayGiveUp flight (w.store.generation = flight.generation)) :
    Advancing (resumeFlight flight w) := by
  have hsound := h.flight flight hf
  obtain ⟨owner, generation, phase⟩ := flight
  unfold Mobile.resumeFlight
  cases phase with
  | loading | sent | saving next | merging tokens | clearing => exact h
  | loaded snapshot =>
      simp only
      split_ifs with hgeneration hsame
      · refine h.withPhase _ hf rfl ?_ (.inl id)
        unfold sameAuthenticatedSnapshot at hsame
        cases hsession : snapshot.session with
        | none =>
            rw [hsession] at hsame
            cases hsame
        | some session =>
            rw [hsession] at hsame
            simp only [Bool.and_eq_true, decide_eq_true_eq] at hsame
            obtain ⟨hrecent, hinit⟩ := hsound session hsession
            exact ⟨hsame.1.2 ▸ hrecent, hinit⟩
      · exact h.withPhase _ hf rfl trivial (.inl id)
      · exact (h.withPhase .loading hf rfl trivial (.inl id)).enqueue _
  | current =>
      simp only
      have hlive : owner.refreshToken ∉ w.spentTokens := h.live _ hsound.1
      rw [send_of_live hlive]
      exact h.withPhase _ hf rfl hsound (.inl id)
  | answered next =>
      cases next with
      | none =>
          simp only
          split_ifs with hgeneration
          · exact (h.advance.withPhase .clearing hf rfl trivial (.inl id)).enqueue _
          · refine h.withPhase _ hf rfl trivial (.inr fun c hc => ?_)
            have hrid := (hgive rfl).resolve_left (by simpa using hgeneration)
            exact h.store.recent_of_rid rfl hf hrid hc
      | some next =>
          simp only
          split_ifs
          · exact (h.advance.withPhase (.saving next) hf rfl hsound (.inl id)).enqueue _
          · exact h.withPhase _ hf rfl hsound (.inl id)
  | unsaved tokens => exact h.attemptMerge hf rfl hsound
  | attempted tokens attempt =>
      cases attempt with
      | retry => exact h.attemptMerge hf rfl hsound
      | merged mergedAt =>
          simp only
          split_ifs
          · exact h.withPhase _ hf rfl trivial (.inl nofun)
          · exact h.attemptMerge hf rfl hsound
      | stopped => exact h.withPhase _ hf rfl trivial (.inl nofun)
  | done =>
      have hrecent : ∀ c, w.store.cached = some c → w.Recent (tokenPairOf c) := by
        refine fun c => h.store.recent_of_idle fun f hf' => ?_
        rw [hf] at hf'
        cases hf'
        rfl
      constructor
      · exact h.store.of_recent hrecent rfl rfl
      · exact fun f hf' => nomatch hf'
      · intro r hr
        obtain ⟨hseen, hawaited⟩ := h.running r hr
        refine ⟨hseen, fun hof => ?_⟩
        obtain ⟨f, hf', hawaits⟩ := hawaited hof
        rw [hf] at hf'
        cases hf'
        cases hawaits.waiting
      · exact h.live
      · exact h.known
      · exact h.resent

theorem Advancing.resume (h : Advancing w) (horderly : Orderly read .resume w) :
    Advancing (resume w) := by
  unfold Mobile.resume
  split
  · exact h
  · next flight hf =>
      exact h.resumeFlight hf (horderly flight (by rw [hf]; exact List.mem_singleton_self _))

theorem Advancing.refresh (h : Advancing w) (owner : Session) (generation : Nat) :
    Advancing (refresh owner generation w) := by
  unfold Mobile.refresh
  split
  · exact h
  · next hnone =>
      have hrecent : ∀ c, w.store.cached = some c → w.Recent (tokenPairOf c) := by
        refine fun c => h.store.recent_of_idle fun f hf => ?_
        rw [hnone] at hf
        cases hf
      refine Advancing.enqueue ?_ _
      constructor
      · exact h.store.of_recent hrecent rfl rfl
      · intro f hf
        cases hf
        exact trivial
      · intro r hr
        obtain ⟨hseen, hawaited⟩ := h.running r hr
        refine ⟨hseen, fun hof => ?_⟩
        obtain ⟨f, hf, -⟩ := hawaited hof
        rw [hnone] at hf
        cases hf
      · exact h.live
      · exact h.known
      · exact h.resent

theorem Advancing.step {action : Action} (horderly : Orderly read action w) (h : Advancing w) :
    Advancing (step read action w) := by
  cases action with
  | issue tokens =>
      unfold Mobile.step
      simp only
      split_ifs with hfresh
      · exact h.issue hfresh
      · exact h
  | loadSession => exact h.enqueue _
  | saveSession session =>
      unfold Mobile.step
      simp only
      split_ifs
      · exact h.advance.enqueue _
      · exact h
  | clearSession => exact h.advance.enqueue _
  | call call => exact h.enqueueCall call
  | refresh owner generation => exact h.refresh owner generation
  | begin io => exact h.begin io horderly
  | settle io => exact h.settle io horderly
  | answer answer => exact h.serve horderly
  | resume => exact h.resume horderly

end Step

/-! ## Runs -/

namespace Demo

/-- Tokens whose payload tells nothing. -/
def read : ReadLineage := fun _ => none

def io : StorageOutcome := ⟨true, true, true⟩

/-- A member of two companies. -/
def session (tokens : TokenPair) (fullName activeMembershipId : String) : Session where
  accessToken := tokens.accessToken
  refreshToken := tokens.refreshToken
  user := ⟨"u", "u@x", fullName, "en", true, none⟩
  activeMembershipId := some activeMembershipId
  memberships := [⟨"m", "t", "t", "T", "MEMBER", "c", 0⟩, ⟨"n", "s", "s", "S", "MEMBER", "d", 0⟩]

def old : TokenPair := ⟨"a", "r"⟩

def new : TokenPair := ⟨"b", "s"⟩

def owner : Session := session old "U" "m"

/-- The app is started with the session of its last run. -/
def started : World := ⟨⟨.session owner, none, false, 0, none⟩, [], none, none, [old], [], []⟩

/-- The session is refreshed; another one is saved before the server answers. -/
def refreshing (saved : Session) : List Action :=
  [.loadSession, .begin io, .refresh owner 0, .begin io, .resume, .resume, .saveSession saved,
    .begin io, .answer (.refreshed new (some (session new "U" "m"))), .resume, .resume, .begin io]

/-- The session that is left is refreshed. -/
def again : List Action := [.refresh (session old "U" "n") 1, .begin io, .resume, .resume]

def after (actions : List Action) : World := run (step read) actions started

end Demo

end Refearn.Mobile
