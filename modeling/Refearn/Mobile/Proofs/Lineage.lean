import Refearn.Mobile.Store
/-!
# The store never goes back to spent tokens

A session in the store carries tokens that the server has issued since the last refresh that it
has answered, or those that the refresh under way is about to replace. A session that is saved
with older tokens gets the newer ones from the lineage record, if the record knows it.
-/

namespace Refearn.Mobile

open Support
open Web (Session sameActiveTenant)

/-! ## Sessions and their tokens -/

theorem hasTokenPair_iff {a b : TokenPair} : hasTokenPair a b = true ↔ a = b := by
  cases a
  cases b
  simp [hasTokenPair]

@[simp] theorem tokenPairOf_withTokens (s : Session) (t : TokenPair) :
    tokenPairOf (withTokens s t) = t := rfl

/-- The workspace of a session: the tenant of its active membership, if there is one; `none`
if the active membership is not among the memberships. -/
def workspace (s : Session) : Option (Option String) :=
  match s.activeMembershipId with
  | none => some none
  | some id => (s.memberships.find? fun m => m.id = id).map fun m => some m.tenantId

theorem sameSessionIdentity_iff {l r : Session} : sameSessionIdentity l r = true ↔
    l.user.id = r.user.id ∧ l.activeMembershipId = r.activeMembershipId ∧
      ∃ tenant, workspace l = some tenant ∧ workspace r = some tenant := by
  unfold sameSessionIdentity
  simp only [Bool.and_eq_true, decide_eq_true_eq, and_assoc]
  refine and_congr_right fun _ => and_congr_right fun hactive => ?_
  unfold sameActiveTenant workspace
  rw [← hactive]
  cases l.activeMembershipId with
  | none => simp
  | some id =>
      simp only
      cases l.memberships.find? fun m => m.id = id with
      | none => simp
      | some m =>
          cases r.memberships.find? fun m => m.id = id with
          | none => simp
          | some m' => simp [eq_comm]

theorem sameSessionIdentity_symm {l r : Session} (h : sameSessionIdentity l r = true) :
    sameSessionIdentity r l = true := by
  obtain ⟨huser, hactive, tenant, hl, hr⟩ := sameSessionIdentity_iff.mp h
  exact sameSessionIdentity_iff.mpr ⟨huser.symm, hactive.symm, tenant, hr, hl⟩

theorem sameSessionIdentity_trans {l m r : Session} (h : sameSessionIdentity l m = true)
    (h' : sameSessionIdentity m r = true) : sameSessionIdentity l r = true := by
  obtain ⟨huser, hactive, tenant, hl, hm⟩ := sameSessionIdentity_iff.mp h
  obtain ⟨huser', hactive', tenant', hm', hr⟩ := sameSessionIdentity_iff.mp h'
  have htenant : tenant = tenant' := Option.some.inj (hm.symm.trans hm')
  exact sameSessionIdentity_iff.mpr
    ⟨huser.trans huser', hactive.trans hactive', tenant, hl, htenant ▸ hr⟩

theorem sameSessionIdentity_withTokens (l r : Session) (t : TokenPair) :
    sameSessionIdentity l (withTokens r t) = sameSessionIdentity l r := rfl

/-! ## The lineage record -/

/-- What is registered is of the owner's identity and ends in the refreshed tokens, unless
the tokens have not changed: then the record is the one that was there. -/
theorem registered {read : ReadLineage} {current : Option TokenAdvancement} {owner : Session}
    {refreshed : Session} {a : TokenAdvancement}
    (h : registerTokenAdvancement read current (some owner) refreshed = some a) :
    sameSessionIdentity owner refreshed = true ∧ sameSessionIdentity a.owner refreshed = true ∧
      (tokenPairOf refreshed ≠ tokenPairOf owner → a.latestTokens = tokenPairOf refreshed) ∧
        (tokenPairOf refreshed = tokenPairOf owner → current = some a) := by
  unfold registerTokenAdvancement at h
  simp only at h
  split_ifs at h with hidentity hsame
  · rw [hasTokenPair_iff] at hsame
    obtain ⟨hcurrent, hcontinues⟩ := Option.filter_eq_some_iff.mp h
    unfold TokenAdvancement.continues at hcontinues
    simp only [Bool.and_eq_true] at hcontinues
    exact ⟨hidentity, hcontinues.1.2, fun hne => absurd hsame hne, fun _ => hcurrent⟩
  · rw [hasTokenPair_iff] at hsame
    refine ⟨hidentity, ?_, fun _ => ?_, fun heq => absurd heq hsame⟩
    · split at h
      · next c hc =>
          obtain ⟨-, hcontinues⟩ := Option.filter_eq_some_iff.mp hc
          unfold TokenAdvancement.continues at hcontinues
          simp only [Bool.and_eq_true] at hcontinues
          cases h
          exact hcontinues.1.2
      · cases h
        exact hidentity
    · split at h <;> cases h <;> rfl

/-! ## What has been issued -/

/-- The pairs issued since `tokens`, with them. -/
def issuedSince (issued : List TokenPair) (tokens : TokenPair) : List TokenPair :=
  issued.takeWhile (fun t => t ≠ tokens) ++ [tokens]

theorem mem_issuedSince_self (issued : List TokenPair) (tokens : TokenPair) :
    tokens ∈ issuedSince issued tokens :=
  List.mem_append_right _ (List.mem_singleton_self tokens)

theorem mem_issuedSince_cons {issued : List TokenPair} {t u tokens : TokenPair}
    (hne : u ≠ tokens) :
    t ∈ issuedSince (u :: issued) tokens ↔ t = u ∨ t ∈ issuedSince issued tokens := by
  unfold issuedSince
  rw [List.takeWhile_cons_of_pos (by simpa using hne), List.cons_append, List.mem_cons]

theorem mem_issuedSince_latest {issued : List TokenPair} {t tokens : TokenPair} :
    t ∈ issuedSince (tokens :: issued) tokens ↔ t = tokens := by
  unfold issuedSince
  rw [List.takeWhile_cons_of_neg (by simp), List.nil_append, List.mem_singleton]

/-- The pair has been issued since every refresh that has been answered. -/
def World.Recent (w : World) (t : TokenPair) : Prop :=
  ∀ r ∈ w.answered, t ∈ issuedSince w.issued r.next

instance (w : World) (t : TokenPair) : Decidable (w.Recent t) :=
  inferInstanceAs (Decidable (∀ r ∈ w.answered, t ∈ issuedSince w.issued r.next))

/-- The refresh has its answer and is not over. -/
def Phase.isPending : Phase → Bool
  | .answered _ | .saving _ | .unsaved _ | .merging _ | .attempted _ .retry | .clearing => true
  | .loading | .loaded _ | .current | .sent | .attempted _ _ | .done => false

/-- The refresh waits for an operation on the store. -/
def Phase.isWaiting : Phase → Bool
  | .saving _ | .merging _ | .clearing => true
  | _ => false

/-- The refresh under way has spent the tokens of the session and will replace them. -/
def World.Replaces (w : World) (s : Session) : Prop :=
  w.refreshInFlight.any (fun flight =>
    flight.phase.isPending && decide (flight.owner.refreshToken ∈ w.spentTokens) &&
      tokenPairOf s = tokenPairOf flight.owner && sameSessionIdentity flight.owner s) = true

instance (w : World) (s : Session) : Decidable (w.Replaces s) :=
  inferInstanceAs (Decidable (_ = true))

theorem World.replaces_iff {w : World} {s : Session} : w.Replaces s ↔
    ∃ flight, w.refreshInFlight = some flight ∧ flight.phase.isPending = true ∧
      flight.owner.refreshToken ∈ w.spentTokens ∧ tokenPairOf s = tokenPairOf flight.owner ∧
        sameSessionIdentity flight.owner s = true := by
  unfold World.Replaces
  cases w.refreshInFlight with
  | none => simp
  | some flight => simp [and_assoc]

/-- A session that the store may hold. -/
def World.Admissible (w : World) (s : Session) : Prop := w.Recent (tokenPairOf s) ∨ w.Replaces s

instance (w : World) (s : Session) : Decidable (w.Admissible s) :=
  inferInstanceAs (Decidable (_ ∨ _))

/-! ## Orderly steps -/

/-- The tokens of the owner of a refresh, if they are spent, are not in the store. -/
def World.Rid (w : World) (owner : Session) : Prop :=
  owner.refreshToken ∈ w.spentTokens →
    w.store.cached.all (fun c => tokenPairOf c ≠ tokenPairOf owner) = true

instance (w : World) (owner : Session) : Decidable (w.Rid owner) :=
  inferInstanceAs (Decidable (_ → _))

/-- The lineage record has newer tokens for the session, or it may be stored as it is. -/
def World.MaySave (read : ReadLineage) (w : World) (s : Session) : Prop :=
  w.store.tokenAdvancement.any (fun a => sameSessionIdentity a.owner s &&
    (isKnownTokenPair a (tokenPairOf s) || isOlder read a s)) = true ∨ w.Admissible s

instance (read : ReadLineage) (w : World) (s : Session) : Decidable (w.MaySave read s) :=
  inferInstanceAs (Decidable (_ ∨ _))

/-- The store holds nothing but the session that is refreshed, with its identity, and the
lineage record ends in it. -/
def Store.Follows (store : Store) (flight : RefreshFlight) : Prop :=
  store.cached.all (fun c => decide (tokenPairOf c = tokenPairOf flight.owner) &&
      sameSessionIdentity flight.owner c) = true ∧
    store.tokenAdvancement.all (fun a => a.latestTokens = tokenPairOf flight.owner) = true

instance (store : Store) (flight : RefreshFlight) : Decidable (store.Follows flight) :=
  inferInstanceAs (Decidable (_ ∧ _))

/-- A refresh that is given up still finds the store as it was, or its tokens have gone. -/
def World.MayGiveUp (w : World) (flight : RefreshFlight) (undisturbed : Bool) : Prop :=
  undisturbed = true ∨ w.Rid flight.owner

instance (w : World) (flight : RefreshFlight) (undisturbed : Bool) :
    Decidable (w.MayGiveUp flight undisturbed) :=
  inferInstanceAs (Decidable (_ ∨ _))

def World.BeginsOrderly (read : ReadLineage) (w : World) : Operation → Prop
  | .saveSession session => w.MaySave read session
  | .ofRefresh generation => ∀ flight ∈ w.refreshInFlight.toList, flight.phase = .clearing →
      w.MayGiveUp flight
        (w.store.generation = generation && w.store.cached = some flight.owner)
  | .loadSession | .clearSession | .call .. => True

instance (read : ReadLineage) (w : World) : ∀ op, Decidable (w.BeginsOrderly read op)
  | .saveSession session => inferInstanceAs (Decidable (w.MaySave read session))
  | .ofRefresh generation => inferInstanceAs (Decidable (∀ flight ∈ w.refreshInFlight.toList,
      flight.phase = .clearing → w.MayGiveUp flight
        (w.store.generation = generation && w.store.cached = some flight.owner)))
  | .loadSession | .clearSession | .call .. => .isTrue trivial

/-- Others replace a session by newer tokens or change what it says beside them; the refresh
under way succeeds in writing its tokens unless it is told to try again. -/
def World.SettlesOrderly (w : World) (io : StorageOutcome) (running : Running) : Prop :=
  match running.await with
  | .saving _ next => running.ofRefresh = false → io.setItem = true →
      w.Recent (tokenPairOf next) ∨ (w.Admissible next ∧
        w.store.cached.any (fun c => tokenPairOf c = tokenPairOf next) = true)
  | .discarding => True
  | .clearing => running.ofRefresh = true → ∀ flight ∈ w.refreshInFlight.toList,
      w.MayGiveUp flight (w.store.generation = running.generation)
  | .merging _ merged =>
      (running.ofRefresh = false → io.setItem = true → w.Recent (tokenPairOf merged)) ∧
        (running.ofRefresh = true →
          io.setItem = true ∨ w.store.generation ≠ running.generation)

instance (w : World) (io : StorageOutcome) :
    ∀ running, Decidable (w.SettlesOrderly io running)
  | ⟨.saving _ next, _, ofRefresh⟩ => inferInstanceAs (Decidable (ofRefresh = false →
      io.setItem = true → w.Recent (tokenPairOf next) ∨ (w.Admissible next ∧
        w.store.cached.any (fun c => tokenPairOf c = tokenPairOf next) = true)))
  | ⟨.discarding, _, _⟩ => .isTrue trivial
  | ⟨.clearing, generation, ofRefresh⟩ => inferInstanceAs (Decidable (ofRefresh = true →
      ∀ flight ∈ w.refreshInFlight.toList,
        w.MayGiveUp flight (w.store.generation = generation)))
  | ⟨.merging _ merged, generation, ofRefresh⟩ => inferInstanceAs (Decidable
      ((ofRefresh = false → io.setItem = true → w.Recent (tokenPairOf merged)) ∧
        (ofRefresh = true → io.setItem = true ∨ w.store.generation ≠ generation)))

/-- The condition on a step, in the state that it meets. -/
def Orderly (read : ReadLineage) (action : Action) (w : World) : Prop :=
  match action with
  | .begin _ => w.running = none → ∀ op ∈ w.sessionQueue.head?.toList, w.BeginsOrderly read op
  | .settle io => ∀ running ∈ w.running.toList, w.SettlesOrderly io running
  | .answer (.refreshed _ _) =>
      ∀ flight ∈ w.refreshInFlight.toList, flight.phase = .sent → w.store.Follows flight
  | .resume => ∀ flight ∈ w.refreshInFlight.toList, flight.phase = .answered none →
      w.MayGiveUp flight (w.store.generation = flight.generation)
  | .issue _ | .loadSession | .saveSession _ | .clearSession | .call _ | .refresh ..
  | .answer .refused => True

instance (read : ReadLineage) : ∀ action w, Decidable (Orderly read action w)
  | .begin _, w => inferInstanceAs (Decidable (w.running = none →
      ∀ op ∈ w.sessionQueue.head?.toList, w.BeginsOrderly read op))
  | .settle io, w =>
      inferInstanceAs (Decidable (∀ running ∈ w.running.toList, w.SettlesOrderly io running))
  | .answer (.refreshed _ _), w => inferInstanceAs (Decidable
      (∀ flight ∈ w.refreshInFlight.toList, flight.phase = .sent → w.store.Follows flight))
  | .resume, w => inferInstanceAs (Decidable (∀ flight ∈ w.refreshInFlight.toList,
      flight.phase = .answered none →
        w.MayGiveUp flight (w.store.generation = flight.generation)))
  | .issue _, _ | .loadSession, _ | .saveSession _, _ | .clearSession, _ | .call _, _
  | .refresh .., _ | .answer .refused, _ => .isTrue trivial

/-! ## The invariant -/

/-- The store holds what it may hold, and so does the lineage record. -/
structure StoreSound (w : World) (store : Store) : Prop where
  cached : ∀ c, store.cached = some c → w.Admissible c
  advancement : ∀ a, store.tokenAdvancement = some a → ∃ c, store.cached = some c ∧
    sameSessionIdentity a.owner c = true ∧
      (w.Recent a.latestTokens ∨ a.latestTokens = tokenPairOf c)
  initialized : store.cacheInitialized = false → store.cached = none ∧ w.answered = []

/-- What the refresh under way knows. -/
def World.FlightSound (w : World) (flight : RefreshFlight) : Prop :=
  match flight.phase with
  | .loaded snapshot => ∀ s, snapshot.session = some s →
      w.Recent (tokenPairOf s) ∧ w.store.cacheInitialized = true
  | .current | .sent =>
      w.Recent (tokenPairOf flight.owner) ∧ w.store.cacheInitialized = true
  | .answered (some next) | .saving next =>
      w.Recent (tokenPairOf next) ∧ tokenPairOf next ≠ tokenPairOf flight.owner
  | .unsaved tokens | .merging tokens | .attempted tokens _ =>
      w.Recent tokens ∧ tokens ≠ tokenPairOf flight.owner
  | .loading | .answered none | .clearing | .done => True

/-- The refresh waits for the operation that awaits the storage. -/
def RefreshFlight.Awaits (flight : RefreshFlight) : Await → Prop
  | .saving _ next => flight.phase = .saving next
  | .discarding => ∃ next, flight.phase = .saving next
  | .clearing => flight.phase = .clearing
  | .merging _ merged => flight.phase = .merging (tokenPairOf merged)

/-- What the running operation has seen before it awaits the storage. -/
def Store.Seen (store : Store) : Await → Prop
  | .saving expected _ => store.cached = expected.session
  | .merging owner merged => ∃ c, store.cached = some c ∧ sameSessionIdentity owner c = true ∧
      merged = withTokens c (tokenPairOf merged) ∧ tokenPairOf merged ≠ tokenPairOf owner
  | .discarding | .clearing => True

structure RunningSound (w : World) (running : Running) : Prop where
  seen : w.store.Seen running.await
  awaited : running.ofRefresh = true →
    ∃ flight, w.refreshInFlight = some flight ∧ flight.Awaits running.await

structure Advancing (w : World) : Prop where
  store : StoreSound w w.store
  flight : ∀ flight, w.refreshInFlight = some flight → w.FlightSound flight
  running : ∀ running, w.running = some running → RunningSound w running
  live : ∀ t, w.Recent t → t.refreshToken ∉ w.spentTokens
  known : ∀ r ∈ w.answered, r.next ∈ w.issued
  resent : w.resent = []

theorem recent_of_unanswered {w : World} (h : w.answered = []) (t : TokenPair) : w.Recent t := by
  intro r hr
  rw [h] at hr
  exact absurd hr List.not_mem_nil

theorem Advancing.of_initial {w : World} (h : w.Initial) : Advancing w where
  store :=
    { cached := fun c hc => by rw [h.cached] at hc; cases hc
      advancement := fun a ha => by rw [h.tokenAdvancement] at ha; cases ha
      initialized := fun _ => ⟨h.cached, h.answered⟩ }
  flight f hf := by rw [h.refreshInFlight] at hf; cases hf
  running r hr := by rw [h.running] at hr; cases hr
  live t _ := by rw [World.spentTokens, h.answered]; exact List.not_mem_nil
  known r hr := by rw [h.answered] at hr; exact absurd hr List.not_mem_nil
  resent := h.resent

section Store

variable {read : ReadLineage} {w w' : World} {store : Store}

theorem recent_congr (hissued : w'.issued = w.issued) (hanswered : w'.answered = w.answered)
    (t : TokenPair) : w'.Recent t ↔ w.Recent t := by
  unfold World.Recent
  rw [hissued, hanswered]

theorem spentTokens_congr (hanswered : w'.answered = w.answered) :
    w'.spentTokens = w.spentTokens := by
  unfold World.spentTokens
  rw [hanswered]

/-! ### What may be in the store -/

/-- A store without spent tokens needs no refresh. -/
theorem StoreSound.of_recent (h : StoreSound w store)
    (hrecent : ∀ c, store.cached = some c → w.Recent (tokenPairOf c))
    (hissued : w'.issued = w.issued) (hanswered : w'.answered = w.answered) :
    StoreSound w' store where
  cached c hc := .inl ((recent_congr hissued hanswered _).mpr (hrecent c hc))
  advancement a ha := by
    obtain ⟨c, hc, hidentity, hlatest⟩ := h.advancement a ha
    exact ⟨c, hc, hidentity, hlatest.imp_left (recent_congr hissued hanswered _).mpr⟩
  initialized hinit := by rw [hanswered]; exact h.initialized hinit

/-- A refresh that stays pending goes on to stand for the tokens it has spent. -/
theorem StoreSound.with_flight (h : StoreSound w store) {f f' : RefreshFlight}
    (hf : w.refreshInFlight = some f) (hf' : w'.refreshInFlight = some f')
    (howner : f'.owner = f.owner)
    (hpending : f.phase.isPending = true → f'.phase.isPending = true)
    (hissued : w'.issued = w.issued) (hanswered : w'.answered = w.answered) :
    StoreSound w' store where
  cached c hc := by
    refine (h.cached c hc).imp (recent_congr hissued hanswered _).mpr fun hreplaces => ?_
    obtain ⟨g, hg, hphase, hspent, hpair, hidentity⟩ := World.replaces_iff.mp hreplaces
    have hsame : g = f := Option.some.inj (hg.symm.trans hf)
    subst hsame
    refine World.replaces_iff.mpr ⟨f', hf', hpending hphase, ?_, howner ▸ hpair, howner ▸ hidentity⟩
    rw [howner, spentTokens_congr hanswered]
    exact hspent
  advancement a ha := by
    obtain ⟨c, hc, hidentity, hlatest⟩ := h.advancement a ha
    exact ⟨c, hc, hidentity, hlatest.imp_left (recent_congr hissued hanswered _).mpr⟩
  initialized hinit := by rw [hanswered]; exact h.initialized hinit

theorem StoreSound.mono (h : StoreSound w store) (hflight : w'.refreshInFlight = w.refreshInFlight)
    (hrecent : ∀ t, w.Recent t → w'.Recent t) (hanswered : w'.answered = w.answered) :
    StoreSound w' store where
  cached c hc := by
    refine (h.cached c hc).imp (hrecent _) fun hreplaces => ?_
    unfold World.Replaces
    rw [hflight, spentTokens_congr hanswered]
    exact hreplaces
  advancement a ha := by
    obtain ⟨c, hc, hidentity, hlatest⟩ := h.advancement a ha
    exact ⟨c, hc, hidentity, hlatest.imp_left (hrecent _)⟩
  initialized hinit := by rw [hanswered]; exact h.initialized hinit

/-- Only what is loaded and the record matter. -/
theorem StoreSound.with_store (h : StoreSound w store) {store' : Store}
    (hcached : store'.cached = store.cached)
    (hadvancement : store'.tokenAdvancement = store.tokenAdvancement)
    (hinit : store'.cacheInitialized = store.cacheInitialized) : StoreSound w store' where
  cached c hc := h.cached c (hcached ▸ hc)
  advancement a ha := by
    obtain ⟨c, hc, hrest⟩ := h.advancement a (hadvancement ▸ ha)
    exact ⟨c, hcached.trans hc, hrest⟩
  initialized hfalse := by
    obtain ⟨hnone, hanswered⟩ := h.initialized (hinit ▸ hfalse)
    exact ⟨hcached.trans hnone, hanswered⟩

theorem StoreSound.forget (w : World) (store : Store) : StoreSound w store.forget where
  cached _ hc := nomatch hc
  advancement _ ha := nomatch ha
  initialized hinit := nomatch hinit

theorem StoreSound.removeItem (h : StoreSound w store) (io : StorageOutcome) :
    StoreSound w (store.removeItem io) := by
  unfold Store.removeItem
  split_ifs
  · exact h.with_store rfl rfl rfl
  · exact h

theorem StoreSound.advancement_none (h : StoreSound w store)
    (hinit : store.cacheInitialized = false) : store.tokenAdvancement = none := by
  cases ha : store.tokenAdvancement with
  | none => rfl
  | some a =>
      obtain ⟨c, hc, -⟩ := h.advancement a ha
      rw [(h.initialized hinit).1] at hc
      cases hc

theorem load_of_initialized (io : StorageOutcome) (h : store.cacheInitialized = true) :
    loadSessionWithinQueue io store = store := by
  unfold loadSessionWithinQueue
  exact if_pos h

theorem StoreSound.load (h : StoreSound w store) (io : StorageOutcome) :
    StoreSound w (loadSessionWithinQueue io store) := by
  cases hinit : store.cacheInitialized with
  | true => exact (load_of_initialized io hinit).symm ▸ h
  | false =>
      obtain ⟨-, hanswered⟩ := h.initialized hinit
      have hnone := h.advancement_none hinit
      unfold loadSessionWithinQueue
      rw [if_neg (by rw [hinit]; decide)]
      split_ifs with hget
      · exact ⟨fun _ hc => (nomatch hc), fun _ ha => (nomatch ha), fun _ => ⟨rfl, hanswered⟩⟩
      · cases store.durable with
        | absent =>
            exact ⟨fun _ hc => (nomatch hc), fun a ha => (by rw [hnone] at ha; cases ha),
              fun hfalse => (nomatch hfalse)⟩
        | corrupt => exact (StoreSound.forget w store).removeItem io
        | session candidate =>
            simp only
            split_ifs
            · exact ⟨fun c _ => .inl (recent_of_unanswered hanswered _),
                fun a ha => (by rw [hnone] at ha; cases ha), fun hfalse => (nomatch hfalse)⟩
            · exact (StoreSound.forget w store).removeItem io

theorem cacheInitialized_removeItem (io : StorageOutcome) :
    (store.removeItem io).cacheInitialized = store.cacheInitialized := by
  unfold Store.removeItem
  split_ifs <;> rfl

/-- Nothing that is recent is spent, so what is neither is being replaced. -/
theorem StoreSound.recent_of_rid (h : StoreSound w store) (hstore : store.cached = w.store.cached)
    {flight : RefreshFlight} (hf : w.refreshInFlight = some flight) (hrid : w.Rid flight.owner)
    {c : Session} (hc : store.cached = some c) : w.Recent (tokenPairOf c) := by
  rcases h.cached c hc with hrecent | hreplaces
  · exact hrecent
  · obtain ⟨f, hf', -, hspent, hpair, -⟩ := World.replaces_iff.mp hreplaces
    have hsame : f = flight := Option.some.inj (hf'.symm.trans hf)
    subst hsame
    have hall := hrid hspent
    rw [← hstore, hc] at hall
    simp only [Option.all_some, decide_eq_true_eq] at hall
    exact absurd hpair hall

/-! ### Saving -/

theorem withTokens_self (s : Session) : withTokens s (tokenPairOf s) = s := rfl

theorem resolve_cases (read : ReadLineage) (advancement : Option TokenAdvancement) (s : Session) :
    resolveQueuedSessionSave read advancement s = (s, none) ∨
      ∃ a, advancement = some a ∧ sameSessionIdentity a.owner s = true ∧
        resolveQueuedSessionSave read advancement s =
          (withTokens s a.latestTokens, some a) := by
  cases advancement with
  | none => exact .inl rfl
  | some a =>
      unfold resolveQueuedSessionSave
      simp only
      split_ifs with hidentity hlatest
      · exact .inl rfl
      · rw [hasTokenPair_iff] at hlatest
        refine .inr ⟨a, rfl, by simpa using hidentity, ?_⟩
        rw [← hlatest, withTokens_self]
      · exact .inr ⟨a, rfl, by simpa using hidentity, rfl⟩
      · exact .inl rfl

theorem resolve_known {a : TokenAdvancement} {s : Session}
    (hidentity : sameSessionIdentity a.owner s = true)
    (hknown : isKnownTokenPair a (tokenPairOf s) = true ∨ isOlder read a s = true) :
    (resolveQueuedSessionSave read (some a) s).2 = some a := by
  unfold resolveQueuedSessionSave
  simp only
  rw [if_neg (by rw [hidentity]; decide)]
  split_ifs with hlatest hancestor
  · rfl
  · rfl
  · refine absurd ?_ hancestor
    unfold isKnownTokenPair at hknown
    rw [Bool.or_eq_true] at hknown ⊢
    exact hknown.imp_left fun h => h.resolve_left hlatest

/-- What is saved has the newest tokens of its lineage, or may be stored as it is. -/
theorem StoreSound.save (h : StoreSound w w.store) {s : Session} (hs : w.MaySave read s)
    (io : StorageOutcome) : StoreSound w (saveSessionWithinQueue read io s w.store) := by
  unfold saveSessionWithinQueue
  simp only
  split_ifs
  · rcases resolve_cases read w.store.tokenAdvancement s with hplain | ⟨a, ha, hidentity, hlatest⟩
    · rw [hplain]
      refine ⟨fun c hc => ?_, fun a ha => (nomatch ha), fun hinit => (nomatch hinit)⟩
      cases hc
      refine hs.resolve_left fun hknown => ?_
      obtain ⟨a, ha, hknown⟩ := (Option.any_eq_true _ _).mp hknown
      simp only [Bool.and_eq_true, Bool.or_eq_true] at hknown
      have hsome := resolve_known hknown.1 hknown.2
      rw [ha] at hplain
      rw [hplain] at hsome
      cases hsome
    · rw [hlatest]
      obtain ⟨c, hc, hsame, hrecent⟩ := h.advancement a ha
      refine ⟨fun x hx => ?_, fun b hb => ?_, fun hinit => (nomatch hinit)⟩
      · cases hx
        rcases hrecent with hrecent | heq
        · exact .inl hrecent
        · refine (h.cached c hc).imp (fun hr => by rw [tokenPairOf_withTokens, heq]; exact hr) ?_
          intro hreplaces
          obtain ⟨f, hf, hpending, hspent, hpair, howner⟩ := World.replaces_iff.mp hreplaces
          refine World.replaces_iff.mpr ⟨f, hf, hpending, hspent, ?_, ?_⟩
          · rw [tokenPairOf_withTokens, heq, hpair]
          · exact sameSessionIdentity_trans howner
              (sameSessionIdentity_trans (sameSessionIdentity_symm hsame) hidentity)
      · cases hb
        exact ⟨_, rfl, hidentity, .inr rfl⟩
  · exact (StoreSound.forget w w.store).removeItem io

/-! ### Calls -/

/-- A record that goes on from a session in the store. -/
theorem StoreSound.registered (h : StoreSound w store) {owner refreshed c : Session}
    {a : TokenAdvancement} (hc : store.cached = some c)
    (ha : registerTokenAdvancement read store.tokenAdvancement (some owner) refreshed = some a)
    (hidentity : sameSessionIdentity owner c = true)
    (hlatest : tokenPairOf refreshed ≠ tokenPairOf owner →
      w.Recent (tokenPairOf refreshed) ∨ tokenPairOf refreshed = tokenPairOf c) :
    sameSessionIdentity a.owner c = true ∧
      (w.Recent a.latestTokens ∨ a.latestTokens = tokenPairOf c) := by
  obtain ⟨howner, hrefreshed, hnew, hsame⟩ := Mobile.registered ha
  have hac : sameSessionIdentity a.owner c = true :=
    sameSessionIdentity_trans hrefreshed
      (sameSessionIdentity_trans (sameSessionIdentity_symm howner) hidentity)
  by_cases heq : tokenPairOf refreshed = tokenPairOf owner
  · obtain ⟨c', hc', -, hrecent⟩ := h.advancement a (hsame heq)
    rw [hc] at hc'
    cases hc'
    exact ⟨hac, hrecent⟩
  · rw [hnew heq]
    exact ⟨hac, hlatest heq⟩

theorem StoreSound.beginCall (h : StoreSound w store) (io : StorageOutcome) (call : Call)
    (generation : Nat) : StoreSound w (beginCall read io call generation store).1 := by
  have hload := h.load io
  unfold Mobile.beginCall
  cases call with
  | saveSessionIfCurrent expected next =>
      simp only
      split_ifs <;> exact hload
  | clearSessionIfCurrent expected =>
      simp only
      split_ifs <;> exact hload
  | mergeSessionTokens owner tokens =>
      simp only
      split_ifs
      · exact hload
      · split
        · exact hload
        · next current hcurrent =>
            split_ifs with hidentity
            · exact hload
            · -- the store has the tokens already: they are recorded
              refine ⟨hload.cached, fun a ha => ?_, hload.initialized⟩
              have hregistered := hload.registered hcurrent ha (by simpa using hidentity)
                fun _ => .inr rfl
              exact ⟨current, hcurrent, hregistered⟩
            · exact hload
            · exact hload.with_store rfl rfl rfl

/-- Until it awaits the storage a call loads nothing but the session. -/
theorem beginCall_loads (read : ReadLineage) (io : StorageOutcome) (call : Call)
    (generation : Nat) (store : Store) :
    (beginCall read io call generation store).1.cached =
        (loadSessionWithinQueue io store).cached ∧
      (beginCall read io call generation store).1.cacheInitialized =
        (loadSessionWithinQueue io store).cacheInitialized := by
  unfold Mobile.beginCall
  cases call with
  | saveSessionIfCurrent expected next =>
      simp only
      split_ifs <;> exact ⟨rfl, rfl⟩
  | clearSessionIfCurrent expected =>
      simp only
      split_ifs <;> exact ⟨rfl, rfl⟩
  | mergeSessionTokens owner tokens =>
      simp only
      split_ifs
      · exact ⟨rfl, rfl⟩
      · split
        · exact ⟨rfl, rfl⟩
        · split_ifs <;> exact ⟨rfl, rfl⟩

/-- The await that a call leads to. -/
def Call.LeadsTo : Call → Await → Prop
  | .saveSessionIfCurrent expected next, await => await = .saving expected next
  | .clearSessionIfCurrent _, await => await = .clearing
  | .mergeSessionTokens owner tokens, await =>
      ∃ merged, await = .merging owner merged ∧ tokenPairOf merged = tokens

theorem beginCall_awaits {io : StorageOutcome} {call : Call} {generation generation' : Nat}
    {await : Await}
    (h : (beginCall read io call generation store).2 = .awaits await generation') :
    (beginCall read io call generation store).1.Seen await ∧ call.LeadsTo await := by
  unfold Mobile.beginCall at h ⊢
  cases call with
  | saveSessionIfCurrent expected next =>
      simp only at h ⊢
      split_ifs at h ⊢ with hcurrent
      cases h
      simp only [Bool.and_eq_true, decide_eq_true_eq, sameSessionSnapshot] at hcurrent
      exact ⟨hcurrent.2.symm, rfl⟩
  | clearSessionIfCurrent expected =>
      simp only at h ⊢
      split_ifs at h ⊢
      cases h
      exact ⟨trivial, rfl⟩
  | mergeSessionTokens owner tokens =>
      simp only at h ⊢
      split_ifs at h ⊢
      split at h
      · cases h
      · next current hcurrent =>
          split_ifs at h ⊢ with hidentity hdone howner
          cases h
          rw [hasTokenPair_iff] at hdone
          have hpair : tokenPairOf current = tokenPairOf owner :=
            hasTokenPair_iff.mp (by simpa using howner)
          refine ⟨⟨current, hcurrent, by simpa using hidentity, rfl, ?_⟩, _, rfl, rfl⟩
          rw [tokenPairOf_withTokens, ← hpair]
          exact Ne.symm hdone

/-- What the call finds in the store, if nothing has come between. -/
theorem beginCall_clear {io : StorageOutcome} {expected : SessionSnapshot} {generation : Nat}
    (hinit : store.cacheInitialized = true) (hgeneration : store.generation = generation)
    (hcached : store.cached = expected.session) :
    beginCall read io (.clearSessionIfCurrent expected) generation store =
      (store, .awaits .clearing generation) := by
  unfold Mobile.beginCall
  rw [load_of_initialized io hinit]
  simp only
  rw [if_pos (by simp [hgeneration, hcached, sameSessionSnapshot])]

/-- A merge that ends at once is told to retry, or the tokens of its owner have gone. -/
theorem beginCall_merge_ended {io : StorageOutcome} {owner : Session} {tokens : TokenPair}
    {generation : Nat} {outcome : Outcome}
    (h : (beginCall read io (.mergeSessionTokens owner tokens) generation store).2 =
      .ended outcome) :
    outcome = .merge .retry ∨
      ∀ c, (loadSessionWithinQueue io store).cached = some c → tokenPairOf c = tokens ∨
        sameSessionIdentity owner c = false ∨ tokenPairOf c ≠ tokenPairOf owner := by
  unfold Mobile.beginCall at h
  simp only at h
  split_ifs at h
  · cases h
    exact .inl rfl
  · refine .inr fun c hc => ?_
    split at h
    · next hnone =>
        rw [hnone] at hc
        cases hc
    · next current hcurrent =>
        split_ifs at h hc with hidentity hdone howner
        · rw [hcurrent] at hc
          cases hc
          exact .inr (.inl (by simpa using hidentity))
        · rw [hcurrent] at hc
          cases hc
          exact .inl (hasTokenPair_iff.mp hdone)
        · rw [hcurrent] at hc
          cases hc
          refine .inr (.inr fun heq => ?_)
          rw [hasTokenPair_iff.mpr heq] at howner
          cases howner

theorem StoreSound.settleSaving (h : StoreSound w store) {io : StorageOutcome}
    {expected : SessionSnapshot} {next : Session} {generation : Nat}
    (hseen : store.cached = expected.session)
    (hnext : io.setItem = true → w.Recent (tokenPairOf next) ∨ (w.Admissible next ∧
      ∃ c, store.cached = some c ∧ tokenPairOf c = tokenPairOf next)) :
    StoreSound w (settleCall read io (.saving expected next) generation store).1 := by
  unfold settleCall
  simp only
  by_cases hset : io.setItem = true
  · rw [if_pos hset]
    have hwrite := hnext hset
    -- a record goes on from the session that the caller expected, which is the stored one
    have howner : ∀ a, registerTokenAdvancement read store.tokenAdvancement expected.session next =
        some a → ∃ e, store.cached = some e ∧
          registerTokenAdvancement read store.tokenAdvancement (some e) next = some a := by
      intro a ha
      rw [hseen]
      cases he : expected.session with
      | none =>
          rw [he] at ha
          cases ha
      | some e => exact ⟨e, rfl, he ▸ ha⟩
    split_ifs
    · refine ⟨fun c hc => ?_, fun a ha => ?_, fun hinit => (nomatch hinit)⟩
      · cases hc
        exact hwrite.elim .inl And.left
      · obtain ⟨e, he, ha⟩ := howner a ha
        obtain ⟨-, hidentity, hnew, hsame⟩ := Mobile.registered ha
        refine ⟨next, rfl, hidentity, ?_⟩
        by_cases heq : tokenPairOf next = tokenPairOf e
        · obtain ⟨c, hc, -, hlatest⟩ := h.advancement a (hsame heq)
          rw [he] at hc
          cases hc
          rw [heq]
          exact hlatest
        · exact .inr (hnew heq)
    · refine ⟨h.cached, fun a ha => ?_, h.initialized⟩
      obtain ⟨e, he, ha⟩ := howner a ha
      have hidentity := (Mobile.registered ha).1
      refine ⟨e, he, h.registered he ha
        (sameSessionIdentity_trans hidentity (sameSessionIdentity_symm hidentity)) fun hne => ?_⟩
      rcases hwrite with hrecent | ⟨-, c, hc, heq⟩
      · exact .inl hrecent
      · rw [he] at hc
        cases hc
        exact absurd heq.symm hne
  · rw [if_neg hset]
    split_ifs <;> exact h

theorem StoreSound.settleMerging (h : StoreSound w store) {io : StorageOutcome}
    {owner merged : Session} {generation : Nat} (hseen : store.Seen (.merging owner merged))
    (hmerged : io.setItem = true → w.Recent (tokenPairOf merged)) :
    StoreSound w (settleCall read io (.merging owner merged) generation store).1 := by
  obtain ⟨c, hc, hidentity, -, hne⟩ := hseen
  unfold settleCall
  simp only
  by_cases hset : io.setItem = true
  · rw [if_pos hset]
    split_ifs
    · refine ⟨fun x hx => ?_, fun a ha => ?_, fun hinit => (nomatch hinit)⟩
      · cases hx
        exact .inl (hmerged hset)
      · obtain ⟨-, hsame, hnew, -⟩ := Mobile.registered ha
        exact ⟨merged, rfl, hsame, .inr (hnew hne)⟩
    · exact ⟨h.cached, fun a ha => ⟨c, hc, h.registered hc ha hidentity
        fun _ => .inl (hmerged hset)⟩, h.initialized⟩
  · rw [if_neg hset]
    exact h

theorem StoreSound.settleRemoval (h : StoreSound w store) (io : StorageOutcome) (generation : Nat) :
    StoreSound w (settleCall read io .discarding generation store).1 ∧
      StoreSound w (settleCall read io .clearing generation store).1 := by
  unfold settleCall
  constructor
  · simp only
    split_ifs
    · exact .forget w _
    · exact h.removeItem io
    · exact h
  · simp only
    split_ifs
    · exact .forget w _
    · exact h.removeItem io

/-- Only a write that has failed leads to another await. -/
theorem settleCall_awaits {io : StorageOutcome} {await await' : Await}
    {generation generation' : Nat}
    (h : (settleCall read io await generation store).2 = .awaits await' generation') :
    await' = .discarding ∧ ∃ expected next, await = .saving expected next := by
  unfold settleCall at h
  cases await with
  | saving expected next =>
      simp only at h
      split_ifs at h
      cases h
      exact ⟨rfl, expected, next, rfl⟩
  | discarding =>
      simp only at h
      split_ifs at h
  | clearing => cases h
  | merging owner merged =>
      simp only at h
      split_ifs at h

end Store

end Refearn.Mobile
