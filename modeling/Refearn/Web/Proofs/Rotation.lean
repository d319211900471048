import Refearn.Web.Refresh
/-!
# No refresh token is sent twice

A token is spent as soon as the server has accepted it, and the session that held it is
replaced when the holder of the lock commits. As long as nobody takes the session of a
refresh under way elsewhere meanwhile, the spent token is gone by then.
-/

namespace Refearn.Web

open Support

/-! ## Sessions of one owner -/

theorem refreshToken_of_owner {s s' : Session} (h : sameRefreshOwner s s' = true) :
    s.refreshToken = s'.refreshToken := by
  unfold sameRefreshOwner at h
  simp only [Bool.and_eq_true, decide_eq_true_eq] at h
  exact h.1.2

/-- Only tokens, user and workspace make an owner. -/
theorem sameRefreshOwner_profile {owner s : Session} (h : sameRefreshOwner owner s = true)
    (fullName locale : String) :
    sameRefreshOwner owner
      { s with user := { s.user with fullName := fullName, locale := locale } } = true :=
  h

theorem any_owner {store : Storage} {owner : Session} (h : ownsRefresh store owner = true) :
    ∃ s, store.main = some s ∧ sameRefreshOwner owner s = true := by
  unfold ownsRefresh at h
  cases hmain : store.main with
  | none => rw [hmain] at h; cases h
  | some s =>
      rw [hmain] at h
      exact ⟨s, rfl, h⟩

/-! ## The invariant -/

/-- The holder has sent its token and has not committed yet. -/
def Holder.pending (h : Holder) : Prop := h.phase ≠ .clearing

instance (h : Holder) : Decidable h.pending := inferInstanceAs (Decidable (h.phase ≠ .clearing))

/-- Nobody refreshes a token, and it is not the new one of a refresh under way. -/
structure Unclaimed (w : World) (r : String) : Prop where
  issued : r ∈ w.issued
  live : r ∉ w.accepted
  holder : ∀ h, w.holder = some h → h.pending → h.flight.owner.refreshToken ≠ r
  next : ∀ flight next, w.holder = some ⟨flight, .answered (some next)⟩ →
    next.refreshToken ≠ r

/-- The holder refreshes this very session. -/
def HeldBy (w : World) (s : Session) : Prop :=
  ∃ h, w.holder = some h ∧ h.pending ∧ sameRefreshOwner h.flight.owner s = true

structure HolderSound (w : World) (h : Holder) : Prop where
  nonempty : h.flight.owner.refreshToken ≠ ""
  issued : h.flight.owner.refreshToken ∈ w.issued
  sent : h.phase = .sent → h.flight.owner.refreshToken ∉ w.accepted

structure NextSound (w : World) (next : Session) : Prop where
  nonempty : next.refreshToken ≠ ""
  issued : next.refreshToken ∈ w.issued
  live : next.refreshToken ∉ w.accepted

/-- A stored session has no token, an unclaimed one, or it is the one that is refreshed. -/
structure Rotating (w : World) : Prop where
  main : ∀ s, w.storage.main = some s →
    s.refreshToken = "" ∨ Unclaimed w s.refreshToken ∨ HeldBy w s
  backup : ∀ b, w.storage.impersonator = some b →
    b.refreshToken = "" ∨ Unclaimed w b.refreshToken
  apart : ∀ s b, w.storage.main = some s → w.storage.impersonator = some b →
    s.refreshToken = b.refreshToken → s.refreshToken = ""
  accepted : ∀ r ∈ w.accepted, r ∈ w.issued ∧ r ≠ ""
  holder : ∀ h, w.holder = some h → h.pending → HolderSound w h
  next : ∀ flight next, w.holder = some ⟨flight, .answered (some next)⟩ → NextSound w next
  resent : w.resent = []

theorem Rotating.of_initial {w : World} (h : w.Initial) : Rotating w where
  main s hs := by rw [h.storage] at hs; cases hs
  backup b hb := by rw [h.storage] at hb; cases hb
  apart s b hs := by rw [h.storage] at hs; cases hs
  accepted r hr := by rw [h.accepted] at hr; exact absurd hr List.not_mem_nil
  holder f hf := by rw [h.holder] at hf; cases hf
  next f n hf := by rw [h.holder] at hf; cases hf
  resent := h.resent

/-! ## What a step changes -/

section Step

variable {decode : DecodeClaims} {w w' : World}

/-- The callers that wait and the tabs that queue do not matter. -/
theorem Rotating.congr (h : Rotating w) (hstorage : w'.storage = w.storage)
    (hholder : w'.holder = w.holder) (haccepted : w'.accepted = w.accepted)
    (hissued : w'.issued = w.issued) (hresent : w'.resent = w.resent) : Rotating w' := by
  have hunclaimed : ∀ r, Unclaimed w r → Unclaimed w' r := fun r hr =>
    ⟨hissued ▸ hr.issued, haccepted ▸ hr.live, hholder ▸ hr.holder, hholder ▸ hr.next⟩
  have hheld : ∀ s, HeldBy w s → HeldBy w' s := fun s ⟨f, hf, hrest⟩ => ⟨f, hholder ▸ hf, hrest⟩
  constructor
  · intro s hs
    rw [hstorage] at hs
    exact (h.main s hs).imp_right (Or.imp (hunclaimed _) (hheld s))
  · intro b hb
    rw [hstorage] at hb
    exact (h.backup b hb).imp_right (hunclaimed _)
  · rw [hstorage]
    exact h.apart
  · rw [haccepted, hissued]
    exact h.accepted
  · intro f hf hp
    have hsound := h.holder f (hholder ▸ hf) hp
    exact ⟨hsound.nonempty, hissued ▸ hsound.issued, haccepted ▸ hsound.sent⟩
  · intro f n hf
    have hnext := h.next f n (hholder ▸ hf)
    exact ⟨hnext.nonempty, hissued ▸ hnext.issued, haccepted ▸ hnext.live⟩
  · rw [hresent]
    exact h.resent

/-- A change of the storage may only move unclaimed tokens. -/
theorem Rotating.with_storage (h : Rotating w) {storage : Storage}
    (hmain : ∀ s, storage.main = some s →
      s.refreshToken = "" ∨ Unclaimed w s.refreshToken ∨ HeldBy w s)
    (hbackup : ∀ b, storage.impersonator = some b →
      b.refreshToken = "" ∨ Unclaimed w b.refreshToken)
    (hapart : ∀ s b, storage.main = some s → storage.impersonator = some b →
      s.refreshToken = b.refreshToken → s.refreshToken = "") :
    Rotating { w with storage := storage } where
  main s hs := (hmain s hs).imp_right (Or.imp (fun hr => ⟨hr.1, hr.2, hr.3, hr.4⟩) id)
  backup b hb := (hbackup b hb).imp_right fun hr => ⟨hr.1, hr.2, hr.3, hr.4⟩
  apart := hapart
  accepted := h.accepted
  holder f hf hp := ⟨(h.holder f hf hp).1, (h.holder f hf hp).2, (h.holder f hf hp).3⟩
  next f n hf := ⟨(h.next f n hf).1, (h.next f n hf).2, (h.next f n hf).3⟩
  resent := h.resent

theorem Rotating.cleared (h : Rotating w) : Rotating { w with storage := ⟨none, none⟩ } :=
  h.with_storage (fun _ hs => nomatch hs) (fun _ hb => nomatch hb) fun _ _ hs => nomatch hs

/-- The main session keeps its token; if it is being refreshed it stays what it was. -/
theorem Rotating.with_main (h : Rotating w) {s s' : Session} (hs : w.storage.main = some s)
    (htoken : s'.refreshToken = s.refreshToken) (hheld : HeldBy w s → HeldBy w s') :
    Rotating { w with storage := { w.storage with main := some s' } } := by
  refine h.with_storage (fun x hx => ?_) h.backup fun x b hx hb heq => ?_
  · cases hx
    rw [htoken]
    exact (h.main s hs).imp_right (Or.imp_right hheld)
  · cases hx
    rw [htoken] at heq ⊢
    exact h.apart s b hs hb heq

/-! ### Callers -/

theorem Rotating.refresh (h : Rotating w) (caller : Flight) : Rotating (refresh w caller) := by
  unfold Web.refresh
  split
  · split_ifs
    · exact h
    · exact h.congr rfl rfl rfl rfl rfl
    · exact h
  · split_ifs
    · exact h.congr rfl rfl rfl rfl rfl
    · exact h

theorem Rotating.sessionForRetry (h : Rotating w) (tab : Nat) (captured : Session)
    (allowUnprovenAdvance : Bool) :
    Rotating (sessionForRetry decode w tab captured allowUnprovenAdvance) := by
  unfold Web.sessionForRetry
  simp only
  split_ifs
  · exact h
  · exact h.refresh _

/-! ### The holder of the lock -/

theorem send_of_live {r : String} (h : r ∉ w.accepted) : w.send r = w := by
  unfold World.send
  exact if_neg h

/-- Only an owner of the session sends its token. -/
theorem refreshWithCurrentSession_send {storage : Storage} {owner : Session}
    (h : refreshWithCurrentSession decode storage owner = .send) :
    ownsRefresh storage owner = true ∧ owner.refreshToken ≠ "" := by
  unfold refreshWithCurrentSession at h
  cases hmain : storage.main with
  | none => rw [hmain] at h; cases h
  | some current =>
      rw [hmain] at h
      simp only at h
      split_ifs at h with hidentity haccess hrefresh howns
      unfold performRefresh at h
      split_ifs at h with hempty
      exact ⟨by simpa using howns, hempty⟩

/-- The lock goes to a tab that sends the token of the session in the storage. -/
theorem Rotating.sent (h : Rotating w) {flight : Flight} {s : Session}
    (hs : w.storage.main = some s) (howner : sameRefreshOwner flight.owner s = true)
    (hne : flight.owner.refreshToken ≠ "")
    (hunclaimed : Unclaimed w flight.owner.refreshToken) {lockQueue : List Flight} :
    Rotating { w with lockQueue := lockQueue, holder := some ⟨flight, .sent⟩ } := by
  have htoken := refreshToken_of_owner howner
  constructor
  · intro x hx
    rw [hs] at hx
    cases hx
    exact .inr (.inr ⟨_, rfl, by simp [Holder.pending], howner⟩)
  · intro b hb
    refine (h.backup b hb).imp_right fun hr => ⟨hr.issued, hr.live, fun f hf _ => ?_,
      fun f n hf => by cases hf⟩
    cases hf
    intro heq
    have hempty := h.apart s b hs hb (htoken.symm.trans heq)
    exact hne (htoken.trans hempty)
  · exact h.apart
  · exact h.accepted
  · intro f hf _
    cases hf
    exact ⟨hne, hunclaimed.issued, fun _ => hunclaimed.live⟩
  · intro f n hf
    cases hf
  · exact h.resent

theorem Rotating.grantLock (h : Rotating w) (flight : Flight) :
    Rotating (grantLock decode w flight) := by
  unfold Web.grantLock
  split_ifs with hguard
  · simp only [Bool.and_eq_true, decide_eq_true_eq, Option.isNone_iff_eq_none] at hguard
    have hfree := hguard.1
    have hunheld : ∀ s, ¬HeldBy w s := fun s ⟨f, hf, _⟩ => by rw [hfree] at hf; cases hf
    simp only
    split
    · exact h.congr rfl rfl rfl rfl rfl
    · -- an empty token is never sent
      have hunclaimed : ∀ r, Unclaimed w r → Unclaimed { w with
          lockQueue := w.lockQueue.erase flight, holder := some ⟨flight, .clearing⟩ } r :=
        fun r hr => ⟨hr.issued, hr.live,
          fun f hf hp => by cases hf; exact absurd rfl hp, fun f n hf => by cases hf⟩
      exact
        { main := fun s hs => (h.main s hs).imp_right fun hor =>
            hor.elim (fun hr => .inl (hunclaimed _ hr)) fun hheld => absurd hheld (hunheld s)
          backup := fun b hb => (h.backup b hb).imp_right (hunclaimed _)
          apart := h.apart
          accepted := h.accepted
          holder := fun f hf hp => by cases hf; exact absurd rfl hp
          next := fun f n hf => by cases hf
          resent := h.resent }
    · next hsend =>
        obtain ⟨howns, hne⟩ := refreshWithCurrentSession_send hsend
        obtain ⟨s, hs, howner⟩ := any_owner howns
        have htoken := refreshToken_of_owner howner
        have hunclaimed : Unclaimed w flight.owner.refreshToken := by
          rw [htoken]
          rcases h.main s hs with hempty | hr | hheld
          · exact absurd (htoken.trans hempty) hne
          · exact hr
          · exact absurd hheld (hunheld s)
        rw [send_of_live (w := { w with lockQueue := w.lockQueue.erase flight }) hunclaimed.live]
        exact h.sent hs howner hne hunclaimed
  · exact h

/-- The server has answered without rotating the token. -/
theorem Rotating.refused (h : Rotating w) {flight : Flight}
    (hholder : w.holder = some ⟨flight, .sent⟩) :
    Rotating { w with holder := some ⟨flight, .answered none⟩ } := by
  have hsound := h.holder _ hholder (by simp [Holder.pending])
  have hunclaimed : ∀ r, Unclaimed w r →
      Unclaimed { w with holder := some ⟨flight, .answered none⟩ } r := by
    intro r hr
    have hother := hr.holder _ hholder (by simp [Holder.pending])
    exact ⟨hr.issued, hr.live, fun f hf _ => by cases hf; exact hother, fun f n hf => by cases hf⟩
  have hheld : ∀ s, HeldBy w s → HeldBy { w with holder := some ⟨flight, .answered none⟩ } s := by
    rintro s ⟨f, hf, -, howner⟩
    rw [hholder] at hf
    cases hf
    exact ⟨_, rfl, by simp [Holder.pending], howner⟩
  exact
    { main := fun s hs => (h.main s hs).imp_right (Or.imp (hunclaimed _) (hheld s))
      backup := fun b hb => (h.backup b hb).imp_right (hunclaimed _)
      apart := h.apart
      accepted := h.accepted
      holder := fun f hf _ => by cases hf; exact ⟨hsound.nonempty, hsound.issued, nofun⟩
      next := fun f n hf => by cases hf
      resent := h.resent }

/-- The server has rotated the token: the old one is spent, the new one is in the answer. -/
theorem Rotating.rotated (h : Rotating w) {flight : Flight}
    (hholder : w.holder = some ⟨flight, .sent⟩) {token : String} {body : Option Session}
    (hfresh : token ∉ w.issued) (hbody : body.all (fun s => s.refreshToken = token) = true) :
    Rotating { w with
      holder := some ⟨flight, .answered (acceptedCandidate flight.owner body)⟩
      accepted := flight.owner.refreshToken :: w.accepted
      issued := token :: w.issued } := by
  have hsound := h.holder _ hholder (by simp [Holder.pending])
  have hnext : ∀ n, acceptedCandidate flight.owner body = some n →
      n.refreshToken = token ∧ n.refreshToken ≠ "" := by
    intro n hn
    obtain ⟨hbody', hn⟩ := Option.filter_eq_some_iff.mp hn
    rw [hbody'] at hbody
    simp only [Bool.and_eq_true, decide_eq_true_eq] at hn
    exact ⟨by simpa using hbody, hn.1.2⟩
  have hunclaimed : ∀ r, Unclaimed w r → Unclaimed { w with
      holder := some ⟨flight, .answered (acceptedCandidate flight.owner body)⟩
      accepted := flight.owner.refreshToken :: w.accepted
      issued := token :: w.issued } r := by
    intro r hr
    have hother := hr.holder _ hholder (by simp [Holder.pending])
    refine ⟨List.mem_cons_of_mem _ hr.issued, ?_, fun f hf _ => ?_, fun f n hf => ?_⟩
    · exact fun hmem => (List.mem_cons.mp hmem).elim (fun heq => hother heq.symm) hr.live
    · cases hf
      exact hother
    · rw [Option.some.injEq, Holder.mk.injEq, Phase.answered.injEq] at hf
      intro heq
      rw [(hnext n hf.2).1] at heq
      exact hfresh (heq ▸ hr.issued)
  constructor
  · intro s hs
    rcases h.main s hs with hempty | hr | ⟨f, hf, -, howner⟩
    · exact .inl hempty
    · exact .inr (.inl (hunclaimed _ hr))
    · rw [hholder] at hf
      cases hf
      exact .inr (.inr ⟨_, rfl, by simp [Holder.pending], howner⟩)
  · exact fun b hb => (h.backup b hb).imp_right (hunclaimed _)
  · exact h.apart
  · intro r hr
    rcases List.mem_cons.mp hr with rfl | hr
    · exact ⟨List.mem_cons_of_mem _ hsound.issued, hsound.nonempty⟩
    · exact ⟨List.mem_cons_of_mem _ (h.accepted r hr).1, (h.accepted r hr).2⟩
  · intro f hf _
    cases hf
    exact ⟨hsound.nonempty, List.mem_cons_of_mem _ hsound.issued, nofun⟩
  · intro f n hf
    rw [Option.some.injEq, Holder.mk.injEq, Phase.answered.injEq] at hf
    obtain ⟨htoken, hne⟩ := hnext n hf.2
    refine ⟨hne, ?_, fun hmem => ?_⟩
    · rw [htoken]
      exact List.mem_cons_self
    · -- a spent token has been handed out, the new one had not
      rw [htoken] at hmem
      rcases List.mem_cons.mp hmem with heq | hmem
      · exact hfresh (heq ▸ hsound.issued)
      · exact hfresh (h.accepted token hmem).1
  · exact h.resent

theorem Rotating.serve (h : Rotating w) (answer : ServerAnswer) : Rotating (serve w answer) := by
  unfold Web.serve
  split
  · next flight hholder =>
      split
      · exact h.refused hholder
      · next token body =>
          split_ifs with hguard
          · obtain ⟨-, hfresh, hbody⟩ := hguard
            exact h.rotated hholder hfresh hbody
          · exact h.refused hholder
  · exact h

/-- The lock is free again, and what is stored is nobody's. -/
theorem Rotating.released (h : Rotating w) {storage : Storage}
    (hmain : ∀ s, storage.main = some s → s.refreshToken = "" ∨
      (s.refreshToken ∈ w.issued ∧ s.refreshToken ∉ w.accepted))
    (hbackup : ∀ b, storage.impersonator = some b → w.storage.impersonator = some b)
    (hapart : ∀ s b, storage.main = some s → storage.impersonator = some b →
      s.refreshToken = b.refreshToken → s.refreshToken = "") :
    Rotating { w with storage := storage, holder := none } where
  main s hs := (hmain s hs).imp_right fun hr =>
    .inl ⟨hr.1, hr.2, (fun _ hf => nomatch hf), fun _ _ hf => nomatch hf⟩
  backup b hb := (h.backup b (hbackup b hb)).imp_right fun hr =>
    ⟨hr.issued, hr.live, (fun _ hf => nomatch hf), fun _ _ hf => nomatch hf⟩
  apart := hapart
  accepted := h.accepted
  holder _ hf := nomatch hf
  next _ _ hf := nomatch hf
  resent := h.resent

/-- A session that is not the holder's has no spent token. -/
theorem Rotating.live_of_not_held (h : Rotating w) {s : Session} (hs : w.storage.main = some s)
    (hheld : ¬HeldBy w s) :
    s.refreshToken = "" ∨ (s.refreshToken ∈ w.issued ∧ s.refreshToken ∉ w.accepted) := by
  rcases h.main s hs with hempty | hr | hby
  · exact .inl hempty
  · exact .inr ⟨hr.issued, hr.live⟩
  · exact absurd hby hheld

theorem Rotating.clearRefreshOwner (h : Rotating w) {holder : Holder}
    (hholder : w.holder = some holder) :
    Rotating { w with
      storage := clearRefreshOwner holder.flight.owner w.storage
      holder := none } := by
  unfold Web.clearRefreshOwner
  split_ifs with howns
  · exact h.released (fun _ hs => nomatch hs) (fun _ hb => nomatch hb) fun _ _ hs => nomatch hs
  · refine h.released (fun s hs => h.live_of_not_held hs ?_) (fun b hb => hb) h.apart
    rintro ⟨f, hf, -, howner⟩
    rw [hholder] at hf
    cases hf
    rw [hs] at howns
    exact howns howner

theorem Rotating.commitRefresh (h : Rotating w) {flight : Flight} {next : Session}
    (hholder : w.holder = some ⟨flight, .answered (some next)⟩) :
    Rotating { w with
      storage := (commitRefresh flight.owner next w.storage).1
      holder := none } := by
  have hnext := h.next _ _ hholder
  unfold Web.commitRefresh
  split
  · next hnone =>
      exact h.released (fun s hs => by rw [hnone] at hs; cases hs) (fun b hb => hb) h.apart
  · next current hcurrent =>
      split_ifs with howner
      · simp only
        split
        · next store hset =>
            -- the new token replaces the spent one
            unfold Storage.set at hset
            split_ifs at hset
            cases hset
            refine h.released (fun s hs => ?_) (fun b hb => hb) fun s b hs hb heq => ?_
            · cases hs
              exact .inr ⟨hnext.issued, hnext.live⟩
            · cases hs
              change next.refreshToken = b.refreshToken at heq
              change next.refreshToken = ""
              rcases h.backup b hb with hempty | hr
              · exact heq.trans hempty
              · exact absurd heq (hr.next _ _ hholder)
        · exact h.released (fun _ hs => nomatch hs) (fun _ hb => nomatch hb)
            fun _ _ hs => nomatch hs
      · refine h.released (fun s hs => h.live_of_not_held hs ?_) (fun b hb => hb) h.apart
        rintro ⟨f, hf, -, howner'⟩
        rw [hholder] at hf
        cases hf
        rw [hcurrent] at hs
        cases hs
        exact howner howner'

theorem Rotating.store (h : Rotating w) : Rotating (store w) := by
  unfold Web.store
  split
  · next hholder => exact h.commitRefresh hholder
  · next hholder => exact h.clearRefreshOwner hholder
  · next hholder => exact h.clearRefreshOwner hholder
  · exact h

/-! ### Changes of the session -/

/-- A new login brings a token that has not been handed out before. -/
theorem Rotating.login (h : Rotating w) {expected : Option Session} {next : Session}
    (hfresh : next.refreshToken ∉ w.issued) :
    Rotating { w.mutate (replaceSessionIfCurrent expected next w.storage) with
      issued := next.refreshToken :: w.issued } := by
  have hissued : Rotating { w with issued := next.refreshToken :: w.issued } := by
    have hunclaimed : ∀ r, Unclaimed w r →
        Unclaimed { w with issued := next.refreshToken :: w.issued } r := fun r hr =>
      ⟨List.mem_cons_of_mem _ hr.issued, hr.live, hr.holder, hr.next⟩
    exact
      { main := fun s hs => (h.main s hs).imp_right (Or.imp_left (hunclaimed _))
        backup := fun b hb => (h.backup b hb).imp_right (hunclaimed _)
        apart := h.apart
        accepted := fun r hr => ⟨List.mem_cons_of_mem _ (h.accepted r hr).1, (h.accepted r hr).2⟩
        holder := fun f hf hp => ⟨(h.holder f hf hp).nonempty,
          List.mem_cons_of_mem _ (h.holder f hf hp).issued, (h.holder f hf hp).sent⟩
        next := fun f n hf => ⟨(h.next f n hf).nonempty,
          List.mem_cons_of_mem _ (h.next f n hf).issued, (h.next f n hf).live⟩
        resent := h.resent }
  have hnew : Unclaimed { w with issued := next.refreshToken :: w.issued } next.refreshToken :=
    ⟨List.mem_cons_self, fun hmem => hfresh (h.accepted _ hmem).1,
      fun f hf hp heq => hfresh (heq ▸ (h.holder f hf hp).issued),
      fun f n hf heq => hfresh (heq ▸ (h.next f n hf).issued)⟩
  unfold World.mutate replaceSessionIfCurrent Storage.set
  split_ifs
  · refine hissued.with_storage (fun s hs => ?_) (fun b hb => nomatch hb) fun s b _ hb => nomatch hb
    cases hs
    exact .inr (.inl hnew)
  · exact hissued
  · exact hissued

/-- The session that a flow takes over is not being refreshed. -/
def Untouched (w : World) (s : Session) : Prop :=
  ∀ h, w.holder = some h → h.pending → h.flight.owner.refreshToken ≠ s.refreshToken

instance (w : World) (s : Session) : Decidable (Untouched w s) :=
  match hholder : w.holder with
  | none => .isTrue fun _ hh => by rw [hholder] at hh; cases hh
  | some holder =>
      if hfree : holder.pending → holder.flight.owner.refreshToken ≠ s.refreshToken then
        .isTrue fun h hh => by rw [hholder] at hh; cases hh; exact hfree
      else .isFalse fun h => hfree (h holder hholder)

theorem Untouched.not_held {s : Session} (h : Untouched w s) : ¬HeldBy w s := by
  rintro ⟨f, hf, hp, howner⟩
  exact h f hf hp (refreshToken_of_owner howner)

theorem Rotating.saveProfile (h : Rotating w) (expected : Session) (fullName locale : String) :
    Rotating (w.mutate (Web.saveProfile expected fullName locale w.storage)) := by
  unfold World.mutate Web.saveProfile updateSession Storage.set
  split_ifs with hcurrent
  · refine h.with_main hcurrent rfl ?_
    rintro ⟨f, hf, hp, howner⟩
    exact ⟨f, hf, hp, sameRefreshOwner_profile howner fullName locale⟩
  · exact h
  · exact h

theorem Rotating.applyTenantSwitch (h : Rotating w) {expected : Session}
    (accessToken activeMembershipId : String) (huntouched : Untouched w expected) :
    Rotating (w.mutate (Web.applyTenantSwitch expected accessToken activeMembershipId w.storage)) := by
  unfold World.mutate Web.applyTenantSwitch updateSession Storage.set
  split_ifs with hcurrent
  · exact h.with_main hcurrent rfl fun hheld => absurd hheld huntouched.not_held
  · exact h
  · exact h

theorem Rotating.startImpersonation (h : Rotating w) {expectedAdmin : Session}
    (member : ImpersonatedMember) (huntouched : Untouched w expectedAdmin) :
    Rotating (w.mutate (Web.startImpersonation decode expectedAdmin (impersonationSession member)
      w.storage)) := by
  unfold World.mutate Web.startImpersonation
  split_ifs with hguard
  · simp only [Bool.and_eq_true, decide_eq_true_eq] at hguard
    refine h.with_storage (fun s hs => ?_) (fun b hb => ?_) fun s b hs _ _ => ?_
    · cases hs
      exact .inl rfl
    · cases hb
      rcases h.main _ hguard.1.2 with hempty | hr | hheld
      · exact .inl hempty
      · exact .inr hr
      · exact absurd hheld huntouched.not_held
    · cases hs
      rfl
  · exact h

theorem Rotating.stopImpersonation (h : Rotating w) :
    Rotating { w with storage := Web.stopImpersonation decode w.storage } := by
  unfold Web.stopImpersonation
  simp only
  split
  · split_ifs
    · exact h.cleared
    · exact h
  · next candidate hcandidate =>
      split_ifs
      · refine h.with_storage (fun s hs => ?_) (fun b hb => nomatch hb)
          fun s b _ hb => nomatch hb
        cases hs
        exact (h.backup _ hcandidate).imp_right .inl
      · exact h.cleared
      · exact h.with_storage h.main (fun b hb => nomatch hb) fun s b _ hb => nomatch hb

theorem Rotating.postLogout (h : Rotating w) {s : Session} (hs : w.storage.main = some s)
    (huntouched : Untouched w s) (hne : s.refreshToken ≠ "") :
    Rotating (w.send s.refreshToken) := by
  rw [send_of_live]
  · exact h
  · exact ((h.live_of_not_held hs huntouched.not_held).resolve_left hne).2

end Step

/-! ## Runs -/

/-- No tenant switch, impersonation or logout takes the session that is being refreshed,
between the sending of its token and the commit. -/
def Undisturbed (action : Action) (w : World) : Prop :=
  match action with
  | .applyTenantSwitch expected _ _ => Untouched w expected
  | .startImpersonation expectedAdmin _ => Untouched w expectedAdmin
  | .postLogout => ∀ s, w.storage.main = some s → Untouched w s
  | _ => True

instance (w : World) : Decidable (∀ s, w.storage.main = some s → Untouched w s) :=
  match hmain : w.storage.main with
  | none => .isTrue fun _ hs => nomatch hs
  | some session =>
      if h : Untouched w session then .isTrue fun s hs => by cases hs; exact h
      else .isFalse fun hall => h (hall session rfl)

instance (action : Action) (w : World) : Decidable (Undisturbed action w) :=
  match action with
  | .applyTenantSwitch expected _ _ => inferInstanceAs (Decidable (Untouched w expected))
  | .startImpersonation expectedAdmin _ => inferInstanceAs (Decidable (Untouched w expectedAdmin))
  | .postLogout => inferInstanceAs (Decidable (∀ s, w.storage.main = some s → Untouched w s))
  | .unauthorized .. | .resume _ | .grantLock _ | .serve _ | .store | .login ..
  | .saveProfile .. | .stopImpersonation | .clearSession => .isTrue trivial

theorem Rotating.step {decode : DecodeClaims} {action : Action} {w : World} (h : Rotating w)
    (hundisturbed : Undisturbed action w) : Rotating (step decode action w) := by
  cases action with
  | unauthorized tab captured allowUnprovenAdvance => exact h.sessionForRetry ..
  | resume caller =>
      unfold Web.step
      simp only
      split_ifs
      · have hresumed : Rotating { w with waiting := w.waiting.erase caller } :=
          h.congr rfl rfl rfl rfl rfl
        exact hresumed.refresh caller
      · exact h
  | grantLock flight => exact h.grantLock flight
  | serve answer => exact h.serve answer
  | store => exact h.store
  | login expected next =>
      unfold Web.step
      simp only
      split_ifs with hissued
      · exact h
      · exact h.login hissued
  | saveProfile expected fullName locale => exact h.saveProfile expected fullName locale
  | applyTenantSwitch expected accessToken activeMembershipId =>
      exact h.applyTenantSwitch accessToken activeMembershipId hundisturbed
  | startImpersonation expectedAdmin member => exact h.startImpersonation member hundisturbed
  | stopImpersonation => exact h.stopImpersonation
  | postLogout =>
      unfold Web.step
      simp only
      split
      · next s hs =>
          split_ifs with hempty
          · exact h
          · exact h.postLogout hs (hundisturbed s hs) hempty
      · exact h
  | clearSession => exact h.cleared

/-- In every run in which a session under refresh is left alone, no spent refresh token is
ever sent. -/
theorem spent_tokens_stay_home {decode : DecodeClaims} {w : World} (hinit : w.Initial)
    {actions : List Action} (h : Throughout (step decode) Undisturbed actions w) :
    ∀ done rest, actions = done ++ rest → (run (step decode) done w).resent = [] := by
  rintro done rest rfl
  exact (h.left.invariant (fun _ _ hallowed hrot => hrot.step hallowed)
    (Rotating.of_initial hinit)).resent

namespace Demo

def decode : DecodeClaims := fun token =>
  if token = "imp" then ⟨none, some "ada"⟩ else ⟨some "family", none⟩

/-- Ada, a member of two businesses. -/
def session (accessToken refreshToken : String) : Session where
  accessToken := accessToken
  refreshToken := refreshToken
  user := ⟨"ada", "ada@example.org", "Ada", "en", true, none⟩
  activeMembershipId := some "m1"
  memberships := [⟨"m1", "t1", "one", "One", "tenant_admin", "A1", 0⟩,
    ⟨"m2", "t2", "two", "Two", "tenant_admin", "A2", 0⟩]

def member : ImpersonatedMember :=
  ⟨"imp", "m3", "bob", "Bob", "bob@example.org", "B", "member", "t1", "One"⟩

def start : World := ⟨⟨none, none⟩, none, [], [], [], [], []⟩

theorem start_initial : start.Initial := ⟨rfl, rfl, rfl, rfl, rfl⟩

/-- A request is answered 401, and its refresh is sent. -/
def refreshing (s : Session) : List Action := [.unauthorized 0 s true, .grantLock ⟨0, s⟩]

/-- The server has rotated the token of the login, the tab has not committed yet. -/
def answered : List Action :=
  .login none (session "a0" "r0") :: refreshing (session "a0" "r0") ++
    [.serve (.accepted "r1" (some (session "a1" "r1")))]

/-- Another tab switches to the second business before the commit. -/
def switched : List Action :=
  answered ++ [.applyTenantSwitch (session "a0" "r0") "a2" "m2", .store] ++
    refreshing { session "a2" "r0" with activeMembershipId := some "m2" }

/-- Another tab looks at a member's account before the commit, and comes back. -/
def impersonated : List Action :=
  answered ++ [.startImpersonation (session "a0" "r0") member, .store, .stopImpersonation] ++
    refreshing (session "a0" "r0")

/-- Another tab logs out before the commit. -/
def loggedOut : List Action := answered ++ [.postLogout]

/-- The switch comes after the commit. -/
def inTurn : List Action :=
  answered ++ [.store, .applyTenantSwitch (session "a1" "r1") "a2" "m2"] ++
    refreshing { session "a2" "r1" with activeMembershipId := some "m2" }

end Demo

/-- Three ways to send a spent token: the commit is lost to a tenant switch, a backup brings
the spent token back, a logout posts it. -/
theorem spent_token_sent :
    Demo.start.Initial ∧
      (run (step Demo.decode) Demo.switched Demo.start).resent = ["r0"] ∧
      (run (step Demo.decode) Demo.impersonated Demo.start).resent = ["r0"] ∧
      (run (step Demo.decode) Demo.loggedOut Demo.start).resent = ["r0"] :=
  ⟨Demo.start_initial, by decide, by decide, by decide⟩

/-- A tenant switch between two refreshes. -/
theorem spent_tokens_stay_home_in_turn :
    (run (step Demo.decode) Demo.inTurn Demo.start).accepted = ["r0"] ∧
      ∀ done rest, Demo.inTurn = done ++ rest →
        (run (step Demo.decode) done Demo.start).resent = [] :=
  ⟨by decide, spent_tokens_stay_home Demo.start_initial (by decide)⟩

end Refearn.Web
