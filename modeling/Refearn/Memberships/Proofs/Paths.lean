import Refearn.Memberships.Tree
import Refearn.Ranks
/-!
# Paths spell the sponsor links

Each row carries the path of its sponsor with the label of its own id at the end, and no update
gets past the trigger that could change this. The rows therefore form a tree with
materialised paths, on which the two readings of the tree agree: the prefixes of the texts and
the chain of sponsors.
-/

namespace Refearn.Memberships

open Support Support.Transaction Engine
open Auth (Role InviteConsentSnapshot)

/-! ## Labels -/

section Labels

variable (id : Uuid)

/-- The characters of a label. -/
def labelChars : List Char := (ltreeLabel id).toList

theorem labelChars_eq : labelChars id = id.chars.map fun c => if c = '-' then '_' else c := by
  unfold labelChars ltreeLabel Uuid.text
  rw [String.toList_ofList, String.toList_ofList]

theorem mem_digits_of_mem_chars {c : Char} (hc : c ∈ id.chars) (hdash : c ≠ '-') :
    c ∈ "0123456789abcdef".toList := by
  have hmem : c ∈ id.chars.filter (· ≠ '-') :=
    List.mem_filter.mpr ⟨hc, decide_eq_true hdash⟩
  rw [Uuid.filter_chars] at hmem
  exact mem_fixedHex hmem

theorem mem_labelChars {c : Char} (hc : c ∈ labelChars id) :
    c = '_' ∨ c ∈ "0123456789abcdef".toList := by
  rw [labelChars_eq] at hc
  obtain ⟨d, hd, heq⟩ := List.mem_map.mp hc
  by_cases hdash : d = '-'
  · left
    rw [← heq, if_pos hdash]
  · right
    rw [← heq, if_neg hdash]
    exact mem_digits_of_mem_chars id hd hdash

theorem dot_notMem_labelChars : '.' ∉ labelChars id := by
  intro hdot
  rcases mem_labelChars id hdot with h | h
  · exact absurd h (by decide)
  · exact absurd h (by decide)

theorem filter_labelChars : (labelChars id).filter (· ≠ '_') = id.digits := by
  have hsame : ∀ c ∈ id.chars,
      decide ((if c = '-' then '_' else c) ≠ '_') = decide (c ≠ '-') := by
    intro c hc
    by_cases hdash : c = '-'
    · rw [if_pos hdash, hdash]
      decide
    · have hdigit := mem_digits_of_mem_chars id hc hdash
      have hscore : c ≠ '_' := by
        intro heq
        rw [heq] at hdigit
        exact absurd hdigit (by decide)
      rw [if_neg hdash, decide_eq_true hscore, decide_eq_true hdash]
  calc
    (labelChars id).filter (· ≠ '_')
        = (id.chars.filter fun c => (if c = '-' then '_' else c) ≠ '_').map
            fun c => if c = '-' then '_' else c := by
          rw [labelChars_eq, List.filter_map]
          rfl
    _ = (id.chars.filter (· ≠ '-')).map fun c => if c = '-' then '_' else c := by
          rw [List.filter_congr hsame]
    _ = id.digits.map fun c => if c = '-' then '_' else c := by rw [Uuid.filter_chars]
    _ = id.digits := by
          conv_rhs => rw [← List.map_id id.digits]
          refine List.map_congr_left fun c hc => if_neg fun heq => ?_
          rw [heq] at hc
          exact id.dash_notMem_digits hc

/-- A label gives its identifier back. -/
@[simp] theorem labelId_labelChars : labelId (labelChars id) = id := by
  have hvalue : hexNumber id.digits = id.val := by
    have hlt : id.val < 16 ^ 32 := id.isLt
    unfold Uuid.digits
    rw [hexNumber_fixedHex, Nat.mod_eq_of_lt hlt]
  unfold labelId
  rw [filter_labelChars, hvalue]
  exact Fin.ofNat_val_eq_self id

theorem labelChars_inj {a b : Uuid} (h : labelChars a = labelChars b) : a = b := by
  have hids := congrArg labelId h
  rw [labelId_labelChars, labelId_labelChars] at hids
  exact hids

theorem pathLabels_label : pathLabels (ltreeLabel id) = [labelChars id] :=
  List.splitOn_eq_singleton (dot_notMem_labelChars id)

theorem pathLabels_append (path : String) :
    pathLabels (path ++ "." ++ ltreeLabel id) = pathLabels path ++ [labelChars id] := by
  have hlast := pathLabels_label id
  unfold pathLabels at hlast ⊢
  rw [String.toList_append, String.toList_append, List.append_assoc]
  change (path.toList ++ '.' :: (ltreeLabel id).toList).splitOn '.' = _
  rw [List.splitOn_append_cons_self, hlast]

end Labels

/-! ## What each row says -/

/-- The columns that place a row. -/
def MembershipRow.placement (m : MembershipRow) : Uuid × Uuid × Option Uuid × String × Nat :=
  (m.id, m.tenantId, m.sponsorMembershipId, m.path, m.depth)

/-- A row that is a root, or that stands directly under its sponsor. -/
def PlacedIn (rows : List MembershipRow) (m : MembershipRow) : Prop :=
  (m.sponsorMembershipId = none ∧ m.path = ltreeLabel m.id ∧ m.depth = 0) ∨
    ∃ p ∈ rows, m.sponsorMembershipId = some p.id ∧ m.tenantId = p.tenantId ∧
      m.path = p.path ++ "." ++ ltreeLabel m.id ∧ m.depth = p.depth + 1

theorem PlacedIn.mono {rows rows' : List MembershipRow} {m : MembershipRow}
    (h : PlacedIn rows m) (hsub : rows ⊆ rows') : PlacedIn rows' m := by
  rcases h with hroot | ⟨p, hp, hplaced⟩
  · exact .inl hroot
  · exact .inr ⟨p, hsub hp, hplaced⟩

/-- Where a row stands depends on the placement of the rows alone. -/
theorem PlacedIn.map {rows : List MembershipRow} {m : MembershipRow}
    {f : MembershipRow → MembershipRow} (h : PlacedIn rows m) (hm : m ∈ rows)
    (hf : ∀ r ∈ rows, (f r).placement = r.placement) : PlacedIn (rows.map f) (f m) := by
  have hfields : ∀ r ∈ rows, (f r).id = r.id ∧ (f r).tenantId = r.tenantId ∧
      (f r).sponsorMembershipId = r.sponsorMembershipId ∧ (f r).path = r.path ∧
        (f r).depth = r.depth := by
    intro r hr
    have hplacement := hf r hr
    unfold MembershipRow.placement at hplacement
    rw [Prod.mk.injEq, Prod.mk.injEq, Prod.mk.injEq, Prod.mk.injEq] at hplacement
    exact hplacement
  obtain ⟨hid, htenant, hsponsor, hpath, hdepth⟩ := hfields m hm
  rcases h with ⟨hroot, hlabel, hzero⟩ | ⟨p, hp, hlink, hsame, hunder, hbelow⟩
  · left
    rw [hid, hsponsor, hpath, hdepth]
    exact ⟨hroot, hlabel, hzero⟩
  · obtain ⟨hpid, hptenant, -, hppath, hpdepth⟩ := hfields p hp
    right
    refine ⟨f p, List.mem_map_of_mem hp, ?_⟩
    rw [hid, htenant, hsponsor, hpath, hdepth, hpid, hptenant, hppath, hpdepth]
    exact ⟨hlink, hsame, hunder, hbelow⟩

theorem PlacedIn.path_ne_empty {rows : List MembershipRow} {m : MembershipRow}
    (h : PlacedIn rows m) : m.path ≠ "" := by
  have hlabel : labelChars m.id ≠ [] := by
    intro hnil
    have hdigits := filter_labelChars m.id
    rw [hnil] at hdigits
    have hlength := m.id.length_digits
    rw [← hdigits] at hlength
    cases hlength
  intro hempty
  have hlist : m.path.toList = [] := by
    rw [hempty]
    rfl
  rcases h with ⟨-, hpath, -⟩ | ⟨p, -, -, -, hpath, -⟩
  · rw [hpath] at hlist
    exact hlabel hlist
  · rw [hpath, String.toList_append] at hlist
    exact hlabel (List.append_eq_nil_iff.mp hlist).2

/-- Each row is placed, and callers have read sponsors as they stand. -/
structure TreeInvariant (w : TreeWorld) : Prop where
  placed : ∀ m ∈ w.db.memberships, PlacedIn w.db.memberships.rows m
  sponsors : ∀ s ∈ w.sponsors, ∃ p ∈ w.db.memberships, p.sponsor = s

/-! ## What a call does -/

section Calls

variable {s s' : TreeSession} {m : MembershipRow}

theorem commits_createMembership {membership : MembershipRow} :
    Commits (createMembership membership) s m s' →
      m = membership ∧ s.db.memberships.insert? membership = some s'.db.memberships := by
  unfold createMembership
  simp only [commits_bind, commits_get, commits_require, commits_orThrow, commits_set,
    commits_pure]
  rintro ⟨_, _, ⟨rfl, rfl⟩, _, _, ⟨-, rfl⟩, _, _, ⟨hinserted, rfl⟩, _, _, rfl, rfl, rfl⟩
  exact ⟨rfl, hinserted⟩

theorem commits_createUnder {params : CreateUnderParams}
    (h : Commits (createUnder params) s m s') :
    params.sponsor.tenantId = params.tenantId ∧ (∃ id draws, m = rowUnder params id draws) ∧
      s.db.memberships.insert? m = some s'.db.memberships := by
  unfold createUnder at h
  simp only [commits_bind, commits_require, commits_newUuid, commits_get] at h
  obtain ⟨_, _, ⟨htenant, rfl⟩, id, _, ⟨rfl, rfl⟩, _, _, ⟨rfl, rfl⟩, hcreate⟩ := h
  obtain ⟨rfl, hinserted⟩ := commits_createMembership hcreate
  exact ⟨htenant, ⟨_, _, rfl⟩, hinserted⟩

theorem commits_createUnderWithInviteConsent {params : CreateUnderParams} {inviteId : Uuid}
    {consent : InviteConsentSnapshot}
    (h : Commits (createUnderWithInviteConsent params inviteId consent) s m s') :
    ∃ t, Commits (createUnder params) s m t ∧ s'.db.memberships = t.db.memberships := by
  unfold createUnderWithInviteConsent at h
  simp only [commits_bind, commits_newUuid, commits_get, commits_orThrow, commits_set,
    commits_pure] at h
  obtain ⟨_, t, hcreate, _, _, ⟨rfl, rfl⟩, _, _, ⟨rfl, rfl⟩, _, _, ⟨-, rfl⟩, _, _, rfl, rfl, rfl⟩ :=
    h
  exact ⟨t, hcreate, rfl⟩

theorem commits_createRoot {params : CreateRootParams} (h : Commits (createRoot params) s m s') :
    (∃ id draws, m = rowAtRoot params id draws) ∧
      s.db.memberships.insert? m = some s'.db.memberships := by
  unfold createRoot at h
  simp only [commits_bind, commits_newUuid, commits_get] at h
  obtain ⟨id, _, ⟨rfl, rfl⟩, _, _, ⟨rfl, rfl⟩, hcreate⟩ := h
  obtain ⟨rfl, hinserted⟩ := commits_createMembership hcreate
  exact ⟨⟨_, _, rfl⟩, hinserted⟩

/-- An update that commits has kept the sponsor, and the path unless it was empty. -/
theorem commits_updateMembership {id : Uuid} {u : MembershipUpdate} {r : PUnit}
    (h : Commits (updateMembership id u) s r s') :
    ∃ old, s.db.memberships.find? id = some old ∧
      (u.apply old).sponsorMembershipId = old.sponsorMembershipId ∧
      (old.path = "" ∨ (u.apply old).path = old.path) ∧
      s'.db.memberships = s.db.memberships.updateKey id u.apply u.keepsIndexes := by
  unfold updateMembership forbidReparenting at h
  simp only [commits_bind, commits_get, commits_orThrow, commits_require, commits_set] at h
  obtain ⟨_, _, ⟨rfl, rfl⟩, old, _, ⟨hfound, rfl⟩, _, _, ⟨_, _, ⟨hsponsor, rfl⟩, hpath, rfl⟩,
    rfl⟩ := h
  exact ⟨old, hfound, hsponsor, hpath, rfl⟩

end Calls

/-! ## Every reachable tree -/

section Step

variable {w : TreeWorld}

theorem TreeInvariant.inserted {memberships : Table MembershipRow} {m : MembershipRow}
    {db : TreeDb} (h : TreeInvariant w) (hm : PlacedIn w.db.memberships.rows m)
    (hinserted : w.db.memberships.insert? m = some memberships)
    (hdb : db.memberships = memberships) : TreeInvariant { w with db } := by
  have hrows : memberships.rows = w.db.memberships.rows ++ [m] :=
    (Table.insert?_eq_some.mp hinserted).2
  have hsub : w.db.memberships.rows ⊆ memberships.rows := by
    rw [hrows]
    exact List.subset_append_left _ _
  constructor
  · intro r hr
    change r ∈ db.memberships at hr
    rw [hdb] at hr
    change PlacedIn db.memberships.rows r
    rw [hdb]
    rcases (Table.mem_insert? hinserted).mp hr with hr | heq
    · exact (h.placed r hr).mono hsub
    · rw [heq]
      exact hm.mono hsub
  · intro s hs
    obtain ⟨p, hp, heq⟩ := h.sponsors s hs
    refine ⟨p, ?_, heq⟩
    change p ∈ db.memberships
    rw [hdb]
    exact hsub hp

theorem TreeInvariant.placed_under (h : TreeInvariant w) {params : CreateUnderParams}
    {id : Uuid} {draws : Draws} (hsponsor : params.sponsor ∈ w.sponsors)
    (htenant : params.sponsor.tenantId = params.tenantId) :
    PlacedIn w.db.memberships.rows (rowUnder params id draws) := by
  obtain ⟨p, hp, heq⟩ := h.sponsors _ hsponsor
  right
  refine ⟨p, hp, ?_⟩
  unfold rowUnder
  rw [← htenant, ← heq]
  exact ⟨rfl, rfl, rfl, rfl⟩

theorem TreeInvariant.updated {id : Uuid} {u : MembershipUpdate} {old : MembershipRow}
    {db : TreeDb} (h : TreeInvariant w) (hfound : w.db.memberships.find? id = some old)
    (hsponsor : (u.apply old).sponsorMembershipId = old.sponsorMembershipId)
    (hpath : old.path = "" ∨ (u.apply old).path = old.path)
    (hdb : db.memberships = w.db.memberships.updateKey id u.apply u.keepsIndexes) :
    TreeInvariant { w with db } := by
  obtain ⟨hold, hid⟩ := Table.find?_eq_some.mp hfound
  -- the path of the row is not empty, so the trigger has kept it
  have hkept : (u.apply old).path = old.path :=
    hpath.resolve_left (h.placed old hold).path_ne_empty
  have hsame : ∀ r ∈ w.db.memberships.rows,
      (if key r = id then u.apply r else r).placement = r.placement := by
    intro r hr
    by_cases hr' : key r = id
    · have heq : r = old := Table.eq_of_key hr hold (hr'.trans hid.symm)
      rw [if_pos hr', heq]
      unfold MembershipRow.placement
      rw [hsponsor, hkept]
      rfl
    · rw [if_neg hr']
  have hrows : db.memberships.rows =
      w.db.memberships.rows.map fun r => if key r = id then u.apply r else r := by
    rw [hdb]
    exact Table.rows_updateKey ..
  constructor
  · intro r hr
    change r ∈ db.memberships.rows at hr
    rw [hrows] at hr
    obtain ⟨r₀, hr₀, rfl⟩ := List.mem_map.mp hr
    change PlacedIn db.memberships.rows _
    rw [hrows]
    exact (h.placed r₀ hr₀).map hr₀ hsame
  · intro s hs
    obtain ⟨p, hp, heq⟩ := h.sponsors s hs
    refine ⟨if key p = id then u.apply p else p, ?_, ?_⟩
    · change _ ∈ db.memberships.rows
      rw [hrows]
      exact List.mem_map_of_mem hp
    · have hplacement := hsame p hp
      unfold MembershipRow.placement at hplacement
      rw [Prod.mk.injEq, Prod.mk.injEq, Prod.mk.injEq, Prod.mk.injEq] at hplacement
      obtain ⟨hpid, hptenant, -, hppath, hpdepth⟩ := hplacement
      rw [← heq]
      unfold MembershipRow.sponsor
      rw [hpid, hptenant, hppath, hpdepth]

theorem TreeWorld.commit_of_commits {α : Type} {draws : Draws} {m : TreeTx α} {a : α}
    {s' : TreeSession} (h : Commits m ⟨w.db, draws⟩ a s') :
    w.commit draws m = { w with db := s'.db } := by
  unfold Commits at h
  unfold TreeWorld.commit
  rw [h]

theorem TreeWorld.commit_of_raises {α : Type} {draws : Draws} {m : TreeTx α}
    {e : MembershipError} (h : Raises m ⟨w.db, draws⟩ e) : w.commit draws m = w := by
  unfold Raises at h
  unfold TreeWorld.commit
  rw [h]

/-- A transaction keeps the invariant if it does so where it commits. -/
theorem TreeInvariant.commit {α : Type} {draws : Draws} {m : TreeTx α} (h : TreeInvariant w)
    (hcommits : ∀ a s', Commits m ⟨w.db, draws⟩ a s' → TreeInvariant { w with db := s'.db }) :
    TreeInvariant (w.commit draws m) := by
  rcases commits_or_raises m ⟨w.db, draws⟩ with ⟨a, s', hdone⟩ | ⟨e, hraises⟩
  · rw [TreeWorld.commit_of_commits hdone]
    exact hcommits a s' hdone
  · rw [TreeWorld.commit_of_raises hraises]
    exact h

theorem TreeInvariant.step (h : TreeInvariant w) (step : TreeStep) :
    TreeInvariant (step.apply w) := by
  cases step with
  | readSponsor membershipId =>
      refine ⟨h.placed, fun s hs => ?_⟩
      rcases List.mem_append.mp hs with hs | hs
      · exact h.sponsors s hs
      · obtain ⟨p, hfound, heq⟩ := Option.map_eq_some_iff.mp (Option.mem_toList.mp hs)
        exact ⟨p, (Table.find?_eq_some.mp hfound).1, heq⟩
  | createRoot params draws =>
      change TreeInvariant (w.commit draws (createRoot params))
      refine h.commit fun m s' hcommits => ?_
      obtain ⟨⟨id, draws', hroot⟩, hinserted⟩ := commits_createRoot hcommits
      have hplaced : PlacedIn w.db.memberships.rows m := by
        left
        rw [hroot]
        exact ⟨rfl, rfl, rfl⟩
      exact h.inserted hplaced hinserted rfl
  | createUnder tenantId userId sponsor role draws =>
      cases hread : w.sponsors[sponsor]? with
      | none =>
          simp only [TreeStep.apply, hread]
          exact h
      | some p =>
          have hp := List.mem_of_getElem? hread
          simp only [TreeStep.apply, hread]
          refine h.commit fun m s' hcommits => ?_
          obtain ⟨htenant, ⟨id, draws', hunder⟩, hinserted⟩ := commits_createUnder hcommits
          have hplaced : PlacedIn w.db.memberships.rows m := by
            rw [hunder]
            exact h.placed_under hp htenant
          exact h.inserted hplaced hinserted rfl
  | createUnderWithInviteConsent tenantId userId sponsor role inviteId consent draws =>
      cases hread : w.sponsors[sponsor]? with
      | none =>
          simp only [TreeStep.apply, hread]
          exact h
      | some p =>
          have hp := List.mem_of_getElem? hread
          simp only [TreeStep.apply, hread]
          refine h.commit fun m s' hcommits => ?_
          obtain ⟨t, hcreate, hsame⟩ := commits_createUnderWithInviteConsent hcommits
          obtain ⟨htenant, ⟨id, draws', hunder⟩, hinserted⟩ := commits_createUnder hcreate
          have hplaced : PlacedIn w.db.memberships.rows m := by
            rw [hunder]
            exact h.placed_under hp htenant
          exact h.inserted hplaced hinserted hsame
  | update id u =>
      change TreeInvariant (w.commit _ (updateMembership id u))
      refine h.commit fun r s' hcommits => ?_
      obtain ⟨old, hfound, hsponsor, hpath, hdb⟩ := commits_updateMembership hcommits
      exact h.updated hfound hsponsor hpath hdb

/-- No memberships yet. -/
def TreeWorld.Initial (w : TreeWorld) : Prop := w.db.memberships = .empty ∧ w.sponsors = []

theorem treeInvariant_of_reachable (h : Reachable TreeWorld.Initial TreeStep.apply w) :
    TreeInvariant w := by
  refine Reachable.invariant (I := TreeInvariant) (fun w hinit => ?_)
    (fun step w hw => hw.step step) h
  constructor
  · intro m hm
    rw [hinit.1] at hm
    cases hm
  · intro s hs
    rw [hinit.2] at hs
    cases hs

end Step

end Refearn.Memberships
