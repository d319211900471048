import Refearn.Hierarchy.Proofs.Capabilities
import Refearn.Hierarchy.Search
import Refearn.Support.Transaction
/-!
# What a search lists

Every cursor that a page carries brings the next call to the row that the page ended with. So the
pages of a search are all matching rows in order; whether those are the rows that hold the query
depends on the characters of the query alone.
-/

namespace Refearn.Hierarchy

open Support
open Support.Transaction (mapM_eq_ok)

/-! ## The snapshot of a token -/

section Snapshot

variable {crypto : NodeCrypto} {secret : String} {kind : ReferenceKind} {actor : ActorContext}
  {parentRef subject : String} {t : Int}

theorem textMember_snapshotAt (p : Payload) (members : List (String × JsonValue))
    (h : JsonValue.ofJson p.toJson = .obj members) :
    textMember members "snapshotAt" = some p.snapshotAt := by
  unfold Payload.toJson at h
  simp only [JsonValue.ofJson] at h
  cases h
  unfold textMember JsonValue.member
  simp [JsonValue.ofMembers, JsonValue.ofJson]

theorem Referable.extract_eq (h : Referable kind actor parentRef subject t) :
    extractUntrustedSnapshotAt (windowToken crypto secret kind actor parentRef subject t) =
      .ok (snapshotText t) := by
  have hvalid : Hierarchy.validPayload (windowPayload crypto kind actor parentRef subject t) =
      true := h.validPayload
  have hbytes := encodePayload_bytes_ne hvalid
  have hlength : (windowToken crypto secret kind actor parentRef subject t).toList.length ≤
      HIERARCHY_TOKEN_MAX_LENGTH := h.length_token
  have hdate : canonicalDate (snapshotText t) = some t :=
    canonicalDate_toISOString h.snapshot.snapshot
  have hsplit := splitOn_tokenOf crypto secret
    (bytesOf (Json.stringify (windowPayload crypto kind actor parentRef subject t).toJson))
  have hsignature := isBase64url_signature crypto secret (encodePayload
    (windowPayload crypto kind actor parentRef subject t))
  have hsignatureNe : Base64Url.encode (hierarchySignature crypto secret (base64url
      (bytesOf (Json.stringify (windowPayload crypto kind actor parentRef subject t).toJson)))) ≠
        [] := by
    intro hnil
    unfold encodePayload at hsignature
    rw [hnil] at hsignature
    exact absurd hsignature (by decide)
  have hpayload := isBase64url_of_bytes hbytes
  have hread : JsonValue.parse
      (Json.stringify (windowPayload crypto kind actor parentRef subject t).toJson) =
        some (JsonValue.ofJson (windowPayload crypto kind actor parentRef subject t).toJson) :=
    JsonValue.parse_stringify _
  unfold extractUntrustedSnapshotAt
  rw [if_neg (by
    rintro (hempty | hlong)
    · exact windowToken_ne_empty hempty
    · exact absurd hlength (not_le.mpr hlong))]
  unfold windowToken encodePayload
  rw [hsplit]
  simp only [hpayload, hsignatureNe, Bool.true_eq_false, or_self, if_false, String.ofList_toList,
    decodeCanonical_base64url, hread]
  cases hmembers : JsonValue.ofJson (windowPayload crypto kind actor parentRef subject t).toJson with
  | obj members =>
      have htext := textMember_snapshotAt _ members hmembers
      simp only [htext]
      exact if_pos (by rw [show (windowPayload crypto kind actor parentRef subject t).snapshotAt =
        snapshotText t from rfl, hdate]; rfl)
  | _ => simp [Payload.toJson, JsonValue.ofJson] at hmembers

end Snapshot

/-! ## Following the cursors -/

section Follow

variable {ν : Type} {call : Nat → Option String → Except ServiceError (SearchPage ν)}
  {rows : List MemberRow} {lists : ν → MemberRow → Prop}
  {continues : Nat → Option String → Option MemberRow → Prop}

/-- Each call with a cursor that stands for a row lists the page after that row, with a cursor that
stands for the last row of the page while there are more. -/
def ServesPages (call : Nat → Option String → Except ServiceError (SearchPage ν))
    (rows : List MemberRow) (lists : ν → MemberRow → Prop)
    (continues : Nat → Option String → Option MemberRow → Prop) : Prop :=
  ∀ i cursor after, continues i cursor after → ∃ page, call i cursor = .ok page ∧
    let ahead := inOrder rowKey (afterKey rowKey (after.map rowKey) rows)
    List.Forall₂ lists page.items (ahead.take ADMIN_HIERARCHY_PAGE_SIZE) ∧
      match (ahead.take ADMIN_HIERARCHY_PAGE_SIZE).getLast? with
      | none => page.nextCursor = none
      | some last =>
          if ADMIN_HIERARCHY_PAGE_SIZE < ahead.length then
            ∃ next, page.nextCursor = some next ∧ continues (i + 1) (some next) (some last)
          else page.nextCursor = none

theorem follow_followed (h : ServesPages call rows lists continues) (fuel : Nat) {i : Nat}
    {cursor : Option String} {after : Option MemberRow} (hcursor : continues i cursor after) :
    ∃ items, follow call fuel i cursor = .ok items ∧
      List.Forall₂ lists items
        (followed rowKey ADMIN_HIERARCHY_PAGE_SIZE rows fuel (after.map rowKey)) := by
  induction fuel generalizing i cursor after with
  | zero => exact ⟨[], rfl, .nil⟩
  | succ fuel ih =>
      obtain ⟨page, hcall, hitems, hnext⟩ := h i cursor after hcursor
      unfold follow followed
      rw [hcall]
      simp only [bind, Except.bind]
      cases hlast : ((inOrder rowKey (afterKey rowKey (after.map rowKey) rows)).take
          ADMIN_HIERARCHY_PAGE_SIZE).getLast? with
      | none =>
          rw [hlast] at hnext
          simp only at hnext
          rw [List.getLast?_eq_none_iff.mp hlast] at hitems
          simp only [hnext]
          exact ⟨page.items, rfl, hitems⟩
      | some last =>
          rw [hlast] at hnext
          simp only at hnext
          simp only
          split_ifs at hnext ⊢ with hmore
          · obtain ⟨next, hnext, hcontinues⟩ := hnext
            obtain ⟨rest, hrest, hlists⟩ := ih hcontinues
            simp only [hnext, hrest]
            exact ⟨page.items ++ rest, rfl, List.rel_append hitems hlists⟩
          · simp only [hnext]
            exact ⟨page.items, rfl, hitems⟩

/-- Enough calls list all rows, in order. -/
theorem follow_lists (h : ServesPages call rows lists continues)
    (hkeys : (rows.map rowKey).Nodup) (hstart : continues 0 none none) {fuel : Nat}
    (hfuel : rows.length < fuel) :
    ∃ items, follow call fuel 0 none = .ok items ∧
      List.Forall₂ lists items (inOrder rowKey rows) := by
  obtain ⟨items, hfollow, hlists⟩ := follow_followed h fuel hstart
  have hall : afterKey rowKey ((none : Option MemberRow).map rowKey) rows = rows := by
    unfold afterKey
    exact List.filter_eq_self.mpr fun _ _ => rfl
  rw [followed_eq (by decide) hkeys (by rw [hall]; exact hfuel), hall] at hlists
  exact ⟨items, hfollow, hlists⟩

end Follow

/-! ## The calls of one listing -/

/-- The database and the clock as each call meets them. -/
structure SearchRun where
  actor : ActorContext
  dbs : Nat → HierarchyDb
  clock : Nat → Int
  ivs : Nat → List UInt8

/-- The first call sets the snapshot, and the others come before its cursors expire. The members
of the snapshot stay as they are; others may join. -/
structure SearchRun.Sound (run : SearchRun) : Prop where
  actor : validateActor run.actor = true
  tenants : ∀ i, ∃ tenant, readTenant (run.dbs i) run.actor.tenantId = .ok tenant
  stored : ∀ i, ∀ m ∈ (run.dbs i).members, m.keysetRow.Stored
  sized : ∀ i, (run.dbs i).members.rows.length ≤ MAX_SAFE_INTEGER ∧
    (run.dbs i).sales.length ≤ MAX_SAFE_INTEGER
  snapshot : SnapshotAt (run.clock 0)
  inTime : ∀ i, run.clock i < run.clock 0 + HIERARCHY_REFERENCE_TTL_MS
  same : ∀ i, (existing (run.dbs i) run.actor.tenantId (run.clock 0)).Perm
    (existing (run.dbs 0) run.actor.tenantId (run.clock 0))
  ivs : ∀ i, (run.ivs i).length = 12

/-- What a cursor stands for: none for the start of the first call, and one that the service has
made for the row it was made after. -/
inductive Continues (crypto : NodeCrypto) (secret : String)
    (parse : String → Except HierarchyError (Option Keyset)) (actor : ActorContext)
    (binding : String) (t : Int) : Nat → Option String → Option MemberRow → Prop
  | start : Continues crypto secret parse actor binding t 0 none none
  | next {i : Nat} {m : MemberRow} {subject : String} (hm : m.keysetRow.Stored)
      (hreferable : Referable .cursor actor binding subject t)
      (hparse : parse subject = .ok (some m.keysetRow.pair)) :
      Continues crypto secret parse actor binding t i
        (some (windowToken crypto secret .cursor actor binding subject t)) (some m)

section Cursor

variable {crypto : NodeCrypto} {secret : String}
  {parse : String → Except HierarchyError (Option Keyset)} {actor : ActorContext}
  {binding : String} {t now : Int} {i : Nat} {cursor : Option String} {after : Option MemberRow}

theorem Continues.filter_eq (h : Continues crypto secret parse actor binding t i cursor after) :
    cursor.filter (· ≠ "") = cursor := by
  cases h with
  | start => rfl
  | next => rw [Option.filter_some, if_pos (decide_eq_true windowToken_ne_empty)]

theorem Continues.snapshot_eq (h : Continues crypto secret parse actor binding t i cursor after)
    (ht : SnapshotAt t) (hnow : i = 0 → now = t) :
    snapshotOf cursor now = .ok (snapshotText t) := by
  unfold snapshotOf
  cases h with
  | start =>
      rw [hnow rfl]
      exact congrArg ofHierarchy (toISOString_eq ht.snapshot)
  | next _ hreferable _ => exact congrArg ofHierarchy hreferable.extract_eq

theorem Continues.after_eq {env : HierarchyEnv}
    (h : Continues env.crypto env.secret parse actor binding t i cursor after)
    (hnow : now < t + HIERARCHY_REFERENCE_TTL_MS) :
    keysetAfterCursor env parse { actor, parentRef := binding, snapshotAt := snapshotText t } cursor
      now = .ok (after.map fun m => m.keysetRow.pair) := by
  unfold keysetAfterCursor
  cases h with
  | start => rfl
  | next _ hreferable hparse =>
      simp only [hreferable.verify_eq hnow, bind, Except.bind]
      exact congrArg ofHierarchy hparse

theorem keysetKey_pair {m : MemberRow} (hm : m.keysetRow.Stored) :
    keysetKey m.keysetRow.pair = rowKey m := by
  have hdate : canonicalDate (snapshotText m.joinedAt) = some m.joinedAt :=
    canonicalDate_toISOString hm.joinedAt
  unfold keysetKey KeysetRow.pair MemberRow.keysetRow
  simp only [hdate, Option.getD_some]
  rfl

theorem Continues.key_eq (h : Continues crypto secret parse actor binding t i cursor after) :
    (after.map fun m => m.keysetRow.pair).map keysetKey = after.map rowKey := by
  cases h with
  | start => rfl
  | next hm _ _ => simp [keysetKey_pair hm]

/-- The cursor of a page stands for its last row. -/
theorem nextCursor_continues {make : KeysetRow → Except HierarchyError String}
    {visible : List MemberRow} {p : Prop} [Decidable p]
    (hmake : ∀ m ∈ visible, m.keysetRow.Stored ∧ ∃ subject,
      Referable .cursor actor binding subject t ∧ parse subject = .ok (some m.keysetRow.pair) ∧
        make m.keysetRow = .ok (windowToken crypto secret .cursor actor binding subject t)) :
    ∃ next, nextCursor make (decide p) visible = .ok next ∧
      match visible.getLast? with
      | none => next = none
      | some last =>
          if p then
            ∃ token, next = some token ∧
              Continues crypto secret parse actor binding t (i + 1) (some token) (some last)
          else next = none := by
  unfold nextCursor
  cases hlast : visible.getLast? with
  | none => exact ⟨none, rfl, rfl⟩
  | some last =>
      obtain ⟨hstored, subject, hreferable, hparse, htoken⟩ :=
        hmake last (List.mem_of_getLast? hlast)
      by_cases hp : p
      · simp only [hp, decide_true, if_true, htoken, Except.map]
        exact ⟨_, rfl, _, rfl, .next hstored hreferable hparse⟩
      · simp only [hp, decide_false, if_false, Bool.false_eq_true]
        exact ⟨none, rfl, rfl⟩

end Cursor

/-! ## Rows -/

section Rows

variable {rows rows' : List MemberRow}

theorem nodup_rowKey (db : HierarchyDb) (tenantId : String) (at' : Int) :
    ((existing db tenantId at').map rowKey).Nodup := by
  have hids : ((existing db tenantId at').map (·.id)).Nodup :=
    db.members.keys_nodup.sublist (List.filter_sublist.map _)
  have hsnd : (existing db tenantId at').map (·.id) =
      ((existing db tenantId at').map rowKey).map fun k => (ofLex k).2 := by
    rw [List.map_map]
    rfl
  rw [hsnd] at hids
  exact List.Nodup.of_map _ hids

/-- One row more than a page tells whether there are more. -/
theorem readPage_eq {after : Option Keyset} {k : Option (Int ×ₗ String)}
    (hkeys : (rows.map rowKey).Nodup) (hperm : rows.Perm rows') (hk : after.map keysetKey = k) :
    let ahead := inOrder rowKey (afterKey rowKey k rows')
    ∃ page, readPage after rows = page ∧
      page.take ADMIN_HIERARCHY_PAGE_SIZE = ahead.take ADMIN_HIERARCHY_PAGE_SIZE ∧
      (ADMIN_HIERARCHY_PAGE_SIZE < page.length ↔ ADMIN_HIERARCHY_PAGE_SIZE < ahead.length) ∧
      (page = [] ↔ ahead = []) ∧ (afterKey rowKey k rows).length = ahead.length := by
  have hsub : ((afterKey rowKey k rows).map rowKey).Nodup :=
    hkeys.sublist (List.filter_sublist.map _)
  have hahead : inOrder rowKey (afterKey rowKey k rows) =
      inOrder rowKey (afterKey rowKey k rows') := inOrder_eq_of_perm hsub (hperm.filter _)
  have hlength : (inOrder rowKey (afterKey rowKey k rows)).length =
      (afterKey rowKey k rows).length := (perm_inOrder _).length_eq
  rw [hahead] at hlength
  unfold readPage
  rw [hk, hahead]
  refine ⟨_, rfl, by simp [List.take_take], ?_, by simp, hlength.symm⟩
  rw [List.length_take]
  omega

/-- A page of which every row makes an item. -/
theorem exists_mapM {α β ε : Type} {f : α → Except ε β} {P : β → α → Prop} {as : List α}
    (h : ∀ a ∈ as, ∃ b, f a = .ok b ∧ P b a) :
    ∃ bs, as.mapM f = .ok bs ∧ List.Forall₂ P bs as := by
  induction as with
  | nil => exact ⟨[], rfl, .nil⟩
  | cons a as ih =>
      obtain ⟨b, hb, hP⟩ := h a List.mem_cons_self
      obtain ⟨bs, hbs, hall⟩ := ih fun a' ha' => h a' (List.mem_cons_of_mem _ ha')
      refine ⟨b :: bs, ?_, .cons hP hall⟩
      rw [List.mapM_cons, hb, hbs]
      rfl

end Rows

/-! ## Administrators -/

section Admin

variable {env : HierarchyEnv} {run : SearchRun} {query rawQuery : String} {viewFinancials : Bool}

def AdminLists (item : AdminMemberNode) (m : MemberRow) : Prop :=
  item.membershipId = m.id ∧ item.displayName = m.fullName ∧ item.referralCode = m.referralCode

theorem safeCount_eq {n : Nat} (h : n ≤ MAX_SAFE_INTEGER) : safeCount n = .ok n := by
  unfold safeCount
  exact if_neg (not_lt.mpr h)

theorem length_existing_filter (db : HierarchyDb) (tenantId : String) (at' : Int)
    (p : MemberRow → Bool) :
    ((existing db tenantId at').filter p).length ≤ db.members.rows.length :=
  (List.length_filter_le _ _).trans (List.length_filter_le _ _)

theorem adminPerformance_ok {db : HierarchyDb} (tenant : TenantRow) (at' : Int) (m : MemberRow)
    (hsales : db.sales.length ≤ MAX_SAFE_INTEGER) :
    ∃ performance, adminPerformance env db tenant at' m = .ok performance := by
  have hlength : (approvedSales db m.tenantId (env.monthKey at' tenant.timezone) at'
      (branchOf db m.tenantId at' m)).length ≤ MAX_SAFE_INTEGER :=
    (List.length_filter_le _ db.sales).trans hsales
  unfold adminPerformance
  simp only [safeCount_eq hlength, bind, Except.bind]
  exact ⟨_, rfl⟩

theorem toAdminNode_ok {db : HierarchyDb} (tenantId : String) (at' : Int) (m : MemberRow)
    (localTier : Nat) (performance : Option AdminNodePerformance)
    (hmembers : db.members.rows.length ≤ MAX_SAFE_INTEGER) :
    ∃ item, toAdminNode env db tenantId at' m localTier performance = .ok item ∧
      AdminLists item m := by
  have hdirects : (directsOf db tenantId at' m.id).length ≤ MAX_SAFE_INTEGER :=
    (length_existing_filter ..).trans hmembers
  have hbranch : (branchOf db tenantId at' m).length - 1 ≤ MAX_SAFE_INTEGER :=
    (Nat.sub_le _ _).trans ((length_existing_filter ..).trans hmembers)
  unfold toAdminNode
  simp only [safeCount_eq hdirects, safeCount_eq hbranch, bind, Except.bind]
  exact ⟨_, rfl, rfl, rfl, rfl⟩

theorem searchItem_ok {db : HierarchyDb} (tenantId : String) (at' : Int) (tenant : Option TenantRow)
    (m : MemberRow) (hmembers : db.members.rows.length ≤ MAX_SAFE_INTEGER)
    (hsales : db.sales.length ≤ MAX_SAFE_INTEGER) :
    ∃ item, searchItem env db tenantId at' tenant m = .ok item ∧ AdminLists item m := by
  cases tenant with
  | none => exact toAdminNode_ok tenantId at' m _ none hmembers
  | some tenant =>
      obtain ⟨performance, hperformance⟩ : ∃ performance,
          adminPerformance env db tenant at' m = .ok performance :=
        adminPerformance_ok tenant at' m hsales
      simp only [searchItem, hperformance, bind, Except.bind]
      exact toAdminNode_ok tenantId at' m _ (some performance) hmembers

theorem stored_of_existing (hrun : run.Sound) {i : Nat} {m : MemberRow}
    (hm : m ∈ existing (run.dbs i) run.actor.tenantId (run.clock 0)) : m.keysetRow.Stored :=
  hrun.stored i m (List.mem_of_mem_filter hm)

theorem instantOf_snapshotText {t : Int} (ht : SnapshotAt t) : instantOf (snapshotText t) = t := by
  have hdate : canonicalDate (snapshotText t) = some t := canonicalDate_toISOString ht.snapshot
  unfold instantOf
  rw [hdate]
  rfl

/-- A page of the search of an administrator. -/
theorem adminSearch_serves (hrun : run.Sound) (hquery : checkQuery rawQuery = .ok query)
    (hparameter : checkParameter query = .ok ()) :
    ServesPages
      (fun i cursor =>
        adminSearch env (run.dbs i) run.actor viewFinancials rawQuery cursor (run.clock i))
      ((existing (run.dbs 0) run.actor.tenantId (run.clock 0)).filter (found env query))
      AdminLists
      (Continues env.crypto env.secret parseKeyset run.actor (searchBinding env.crypto query)
        (run.clock 0)) := by
  intro i cursor after hcursor
  have hnow : i = 0 → run.clock i = run.clock 0 := fun h => by rw [h]
  have hinstant := instantOf_snapshotText hrun.snapshot
  have hkeys : (((existing (run.dbs i) run.actor.tenantId (run.clock 0)).filter
      (found env query)).map rowKey).Nodup :=
    (nodup_rowKey ..).sublist (List.filter_sublist.map _)
  obtain ⟨page, hpage, hvisible, hmore, -, -⟩ :=
    readPage_eq hkeys ((hrun.same i).filter (found env query)) hcursor.key_eq
  -- every row of the page makes an item
  obtain ⟨tenant, htenant⟩ := hrun.tenants i
  obtain ⟨hmembers, hsales⟩ := hrun.sized i
  have hshown : ∃ shown, shownTenant (run.dbs i) run.actor.tenantId viewFinancials = .ok shown := by
    unfold shownTenant
    cases viewFinancials
    · exact ⟨none, rfl⟩
    · exact ⟨some tenant, by rw [if_pos rfl, htenant]; rfl⟩
  obtain ⟨shown, hshown⟩ := hshown
  obtain ⟨items, hitems, hlists⟩ : ∃ items, (page.take ADMIN_HIERARCHY_PAGE_SIZE).mapM
      (searchItem env (run.dbs i) run.actor.tenantId (run.clock 0) shown) = .ok items ∧
        List.Forall₂ AdminLists items (page.take ADMIN_HIERARCHY_PAGE_SIZE) :=
    exists_mapM fun m _ => searchItem_ok run.actor.tenantId (run.clock 0) shown m hmembers hsales
  rw [hvisible] at hlists
  have hsnapshot : snapshotOf cursor (run.clock i) = .ok (snapshotText (run.clock 0)) :=
    hcursor.snapshot_eq hrun.snapshot hnow
  have hafter := hcursor.after_eq (hrun.inTime i)
  have hmake : ∀ m ∈ page.take ADMIN_HIERARCHY_PAGE_SIZE, m.keysetRow.Stored ∧ ∃ subject,
      Referable .cursor run.actor (searchBinding env.crypto query) subject (run.clock 0) ∧
        parseKeyset subject = .ok (some m.keysetRow.pair) ∧
          cursorToken env.crypto env.secret run.actor (searchBinding env.crypto query)
            (snapshotText (run.clock 0)) m.keysetRow = .ok (windowToken env.crypto env.secret
              .cursor run.actor (searchBinding env.crypto query) subject (run.clock 0)) := by
    intro m hm
    rw [hvisible] at hm
    have hmem := (perm_inOrder _).mem_iff.mp (List.mem_of_mem_take hm)
    have hstored := stored_of_existing hrun
      (List.mem_of_mem_filter (List.mem_of_mem_filter hmem))
    have hreference : (Reference.searchCursor query m.keysetRow).Stored := hstored
    obtain ⟨subject, hmakes⟩ := Reference.makes hreference rfl hrun.actor hrun.snapshot
    exact ⟨hstored, subject, hmakes.referable, hmakes.parseEq _ rfl, hmakes.createEq⟩
  obtain ⟨next, hnext, hcontinues⟩ := nextCursor_continues (i := i)
    (p := ADMIN_HIERARCHY_PAGE_SIZE < page.length) hmake
  rw [hvisible] at hcontinues
  simp only [hmore] at hcontinues
  refine ⟨⟨items, next, snapshotText (run.clock 0)⟩, ?_, hlists, hcontinues⟩
  simp only [adminSearch, readSearchRows, bind, Except.bind, hquery, hcursor.filter_eq, hsnapshot,
    hafter, hinstant, hparameter, hpage, hshown, hitems, hnext]

end Admin

/-! ## Members -/

section Member

variable {env : HierarchyEnv} {run : SearchRun} {query rawQuery : String} {root : MemberRow}

/-- The opaque reference names the row, whoever can open it. -/
def DirectLists (env : HierarchyEnv) (actor : ActorContext) (rootMembershipId : String) (t : Int)
    (item : MemberDirectNode) (m : MemberRow) : Prop :=
  memberNodeRef env.crypto env.secret actor (memberRootBinding rootMembershipId) m.id
      (snapshotText t) = .ok item.nodeRef ∧
    item.displayName = m.fullName ∧ item.referralCode = m.referralCode

/-- The actor is the root, and the root's recruits stand below it. -/
structure SearchRun.Rooted (run : SearchRun) (root : MemberRow) : Prop where
  mem : root ∈ existing (run.dbs 0) run.actor.tenantId (run.clock 0)
  user : root.userId = run.actor.userId
  placed : ∀ m ∈ existing (run.dbs 0) run.actor.tenantId (run.clock 0),
    m.sponsorMembershipId = some root.id → under root.path m = true ∧ m.depth = root.depth + 1

theorem resolveMemberRoot_eq {db : HierarchyDb} {actor : ActorContext} {at' : Int}
    (hmem : root ∈ existing db actor.tenantId at') (huser : root.userId = actor.userId) :
    resolveMemberRoot db actor root.id at' = .ok root := by
  unfold resolveMemberRoot
  cases hfind : (existing db actor.tenantId at').find? fun m =>
      m.id = root.id ∧ m.userId = actor.userId with
  | none =>
      have hno := List.find?_eq_none.mp hfind root hmem
      exact absurd (decide_eq_true (And.intro rfl huser)) hno
  | some r =>
      have hname := List.find?_some hfind
      have hid : r.id = root.id := (of_decide_eq_true hname).1
      have hr := List.mem_of_find?_eq_some hfind
      have heq : r = root := Table.eq_of_key (List.mem_of_mem_filter hr)
        (List.mem_of_mem_filter hmem) hid
      rw [heq]

theorem directItem_ok {db : HierarchyDb} {actor : ActorContext} {t : Int} (tenant : TenantRow)
    {m : MemberRow} (hactor : validateActor actor = true) (ht : SnapshotAt t)
    (hroot : isUuid root.id = true) (hm : isUuid m.id = true)
    (hmembers : db.members.rows.length ≤ MAX_SAFE_INTEGER)
    (hsales : db.sales.length ≤ MAX_SAFE_INTEGER) :
    ∃ item, directItem env db actor root tenant (snapshotText t) m = .ok item ∧
      ∃ node, item = .direct node ∧ DirectLists env actor root.id t node m := by
  have hreference : (Reference.memberNode root.id m.id).Stored := ⟨hroot, hm⟩
  obtain ⟨subject, hmakes⟩ := Reference.makes hreference rfl hactor ht
  have hnodeRef : memberNodeRef env.crypto env.secret actor (memberRootBinding root.id) m.id
      (snapshotText t) = .ok (windowToken env.crypto env.secret .member actor
        (memberRootBinding root.id) subject t) := hmakes.createEq
  have hcount : ∀ p : MemberRow → Bool, ∀ at' : Int,
      ((existing db actor.tenantId at').filter p).length ≤ MAX_SAFE_INTEGER :=
    fun p at' => (length_existing_filter ..).trans hmembers
  have hchildren : ∀ p : MemberRow → Bool, ∀ at' : Int,
      ((directsOf db actor.tenantId at' m.id).filter p).length ≤ MAX_SAFE_INTEGER :=
    fun p at' => (List.length_filter_le _ _).trans (hcount ..)
  have happroved : ∀ (period : String) (at' : Int),
      ((memberPerformance db actor.tenantId period root at' m).map
        (·.approvedSales)).getD 0 ≤ MAX_SAFE_INTEGER := by
    intro period at'
    unfold memberPerformance
    split
    · exact Nat.zero_le _
    · exact (List.length_filter_le _ db.sales).trans hsales
  unfold directItem
  simp only [hnodeRef, ofHierarchy, Except.mapError, bind, Except.bind, toMemberVisibleNode,
    visibleRecord, Option.getD_some, safeCount_eq (hchildren ..), safeCount_eq (hcount ..),
    safeCount_eq (happroved ..)]
  exact ⟨_, rfl, _, rfl, hnodeRef, rfl, rfl⟩

theorem forall₂_direct {lists : MemberDirectNode → MemberRow → Prop}
    {items : List MemberVisibleNode} {rows : List MemberRow}
    (h : List.Forall₂ (fun item m => ∃ node, item = .direct node ∧ lists node m) items rows) :
    List.Forall₂ lists (items.filterMap MemberVisibleNode.direct?) rows := by
  induction h with
  | nil => exact .nil
  | cons hitem _ ih =>
      obtain ⟨node, rfl, hlists⟩ := hitem
      exact .cons hlists ih

/-- A page of the search of a member. -/
theorem memberDirectSearch_serves (hrun : run.Sound) (hroot : run.Rooted root)
    (hquery : checkQuery rawQuery = .ok query) (hparameter : checkParameter query = .ok ()) :
    ServesPages
      (fun i cursor => memberDirectSearch env (run.dbs i) run.actor (run.ivs i) root.id rawQuery
        cursor (run.clock i))
      ((existing (run.dbs 0) run.actor.tenantId (run.clock 0)).filter fun m =>
        isVisibleDirect root m && found env query m)
      (DirectLists env run.actor root.id (run.clock 0))
      (Continues env.crypto env.secret (parseMemberKeyset env.crypto env.secret) run.actor
        (memberSearchBinding env.crypto root.id query) (run.clock 0)) := by
  intro i cursor after hcursor
  have hnow : i = 0 → run.clock i = run.clock 0 := fun h => by rw [h]
  have hinstant := instantOf_snapshotText hrun.snapshot
  have hrootUuid : isUuid root.id = true := (stored_of_existing hrun hroot.mem).id
  have hkeys : (((existing (run.dbs i) run.actor.tenantId (run.clock 0)).filter fun m =>
      isVisibleDirect root m && found env query m).map rowKey).Nodup :=
    (nodup_rowKey ..).sublist (List.filter_sublist.map _)
  obtain ⟨page, hpage, hvisible, -, hempty, htotal⟩ :=
    readPage_eq hkeys ((hrun.same i).filter _) hcursor.key_eq
  obtain ⟨tenant, htenant⟩ := hrun.tenants i
  obtain ⟨hmembers, hsales⟩ := hrun.sized i
  have hresolve := resolveMemberRoot_eq ((hrun.same i).mem_iff.mpr hroot.mem) hroot.user
  have hstored : ∀ m ∈ page.take ADMIN_HIERARCHY_PAGE_SIZE, m.keysetRow.Stored := by
    intro m hm
    rw [hvisible] at hm
    have hmem := (perm_inOrder _).mem_iff.mp (List.mem_of_mem_take hm)
    exact stored_of_existing hrun (List.mem_of_mem_filter (List.mem_of_mem_filter hmem))
  obtain ⟨items, hitems, hlists⟩ : ∃ items, (page.take ADMIN_HIERARCHY_PAGE_SIZE).mapM
      (directItem env (run.dbs i) run.actor root tenant (snapshotText (run.clock 0))) = .ok items ∧
        List.Forall₂ (fun item m => ∃ node, item = MemberVisibleNode.direct node ∧
          DirectLists env run.actor root.id (run.clock 0) node m) items
            (page.take ADMIN_HIERARCHY_PAGE_SIZE) :=
    exists_mapM fun m hm =>
      directItem_ok tenant hrun.actor hrun.snapshot hrootUuid (hstored m hm).id hmembers hsales
  have hdirect := forall₂_direct hlists
  rw [hvisible] at hdirect
  have hsnapshot : snapshotOf cursor (run.clock i) = .ok (snapshotText (run.clock 0)) :=
    hcursor.snapshot_eq hrun.snapshot hnow
  have hafter := hcursor.after_eq (hrun.inTime i)
  -- the count over the whole query says the same as one row more than a page
  have hcount : ∃ count, safeCount (if page = [] then page.length else
      (afterKey rowKey (after.map rowKey) ((existing (run.dbs i) run.actor.tenantId
        (run.clock 0)).filter fun m => isVisibleDirect root m && found env query m)).length) =
          .ok count ∧
      ((page.take ADMIN_HIERARCHY_PAGE_SIZE).length < count ↔ ADMIN_HIERARCHY_PAGE_SIZE <
        (inOrder rowKey (afterKey rowKey (after.map rowKey) ((existing (run.dbs 0)
          run.actor.tenantId (run.clock 0)).filter fun m =>
            isVisibleDirect root m && found env query m))).length) := by
    have hsmall : (afterKey rowKey (after.map rowKey) ((existing (run.dbs i) run.actor.tenantId
        (run.clock 0)).filter fun m => isVisibleDirect root m && found env query m)).length ≤
          MAX_SAFE_INTEGER :=
      (List.length_filter_le _ _).trans ((length_existing_filter ..).trans hmembers)
    by_cases hnil : page = []
    · have hahead := hempty.mp hnil
      exact ⟨0, by rw [if_pos hnil, hnil]; rfl, by simp [hnil, hahead]⟩
    · refine ⟨_, by rw [if_neg hnil]; exact safeCount_eq hsmall, ?_⟩
      rw [hvisible, htotal, List.length_take]
      omega
  obtain ⟨count, hsafe, hmore⟩ := hcount
  have hmake : ∀ m ∈ page.take ADMIN_HIERARCHY_PAGE_SIZE, m.keysetRow.Stored ∧ ∃ subject,
      Referable .cursor run.actor (memberSearchBinding env.crypto root.id query) subject
          (run.clock 0) ∧
        parseMemberKeyset env.crypto env.secret subject = .ok (some m.keysetRow.pair) ∧
          memberCursorToken env.crypto env.secret (run.ivs i) run.actor
            (memberSearchBinding env.crypto root.id query) (snapshotText (run.clock 0))
              m.keysetRow = .ok (windowToken env.crypto env.secret .cursor run.actor
                (memberSearchBinding env.crypto root.id query) subject (run.clock 0)) := by
    intro m hm
    have hreference : (Reference.memberSearchCursor root.id query (run.ivs i)
        m.keysetRow).Stored := ⟨hrootUuid, hrun.ivs i, hstored m hm⟩
    obtain ⟨subject, hmakes⟩ := Reference.makes hreference rfl hrun.actor hrun.snapshot
    exact ⟨hstored m hm, subject, hmakes.referable, hmakes.parseEq _ rfl, hmakes.createEq⟩
  obtain ⟨next, hnext, hcontinues⟩ := nextCursor_continues (i := i)
    (p := (page.take ADMIN_HIERARCHY_PAGE_SIZE).length < count) hmake
  simp only [hmore] at hcontinues
  rw [hvisible] at hcontinues
  have hcheck : checkRoot root.id = .ok () := if_neg (by rw [hrootUuid]; decide)
  refine ⟨⟨items.filterMap MemberVisibleNode.direct?, next, snapshotText (run.clock 0)⟩, ?_,
    hdirect, hcontinues⟩
  simp only [memberDirectSearch, readMemberDirectSearch, bind, Except.bind, hcheck, hquery,
    hsnapshot, hafter, hinstant, hresolve, htenant, hparameter, hcursor.key_eq, hpage, hitems,
    hsafe, hnext]

end Member

/-! ## Exactness -/

section Exact

variable {env : HierarchyEnv} {query rawQuery : String} {m : MemberRow}

/-- None of the characters that LIKE gives a meaning, and no NUL. -/
def PlainQuery (query : String) : Prop := ∀ c ∈ query.toList, isWild c = false ∧ c ≠ '\x00'

/-- `lower` changes letters, into letters. -/
structure LowersLetters (env : HierarchyEnv) : Prop where
  wild : ∀ c, isWild c = true → env.lower c = c
  letter : ∀ c, isWild (env.lower c) = isWild c

/-- The text holds the query as it stands, up to letter case. -/
def HoldsText (env : HierarchyEnv) (query text : String) : Prop :=
  query.toList.map env.lower <:+: text.toList.map env.lower

def Holds (env : HierarchyEnv) (query : String) (m : MemberRow) : Prop :=
  HoldsText env query m.fullName ∨ HoldsText env query m.referralCode

theorem map_containing (hlower : LowersLetters env) (pattern : List Char) :
    (containing pattern).map env.lower = containing (pattern.map env.lower) := by
  simp [containing, hlower.wild '%' rfl]

theorem ilike_iff (hlower : LowersLetters env) (h : ∀ c ∈ query.toList, isWild c = false)
    (text : String) : ilike env text query = true ↔ HoldsText env query text := by
  have hliteral : ∀ c ∈ query.toList.map env.lower, isWild c = false := by
    intro c hc
    obtain ⟨d, hd, rfl⟩ := List.mem_map.mp hc
    rw [hlower.letter]
    exact h d hd
  unfold ilike
  rw [map_containing hlower]
  exact like_containing hliteral

theorem found_iff (hlower : LowersLetters env) (h : ∀ c ∈ query.toList, isWild c = false)
    (m : MemberRow) : found env query m = true ↔ Holds env query m := by
  unfold found Holds
  rw [Bool.or_eq_true, ilike_iff hlower h, ilike_iff hlower h]

/-- A name that a query with a wild character finds without occurring in it. -/
def sampleOf (query : String) : String := String.ofList (sample 'a' query.toList)

theorem ilike_sampleOf (hlower : LowersLetters env) (query : String) :
    ilike env (sampleOf query) query = true := by
  unfold ilike sampleOf
  rw [map_containing hlower, String.toList_ofList, map_sample hlower.wild hlower.letter]
  exact like_containing_sample _

theorem not_wild_of_holdsText (hlower : LowersLetters env)
    (h : HoldsText env query (sampleOf query)) : ∀ c ∈ query.toList, isWild c = false := by
  unfold HoldsText sampleOf at h
  rw [String.toList_ofList, map_sample hlower.wild hlower.letter] at h
  have hx : isWild (env.lower 'a') = false := by rw [hlower.letter]; rfl
  have hliteral := not_wild_of_infix_sample hx h
  intro c hc
  rw [← hlower.letter]
  exact hliteral _ (List.mem_map_of_mem hc)

theorem checkParameter_eq (h : '\x00' ∉ query.toList) : checkParameter query = .ok () :=
  if_neg (by simpa using h)

section Listing

variable {ν : Type} {call : Nat → Option String → Except ServiceError (SearchPage ν)}
  {rows : List MemberRow} {lists : ν → MemberRow → Prop}
  {continues : Nat → Option String → Option MemberRow → Prop} {wanted : MemberRow → Prop}

/-- Followed to the end the pages list the wanted rows, once each and in order. -/
def ListsExactly (call : Nat → Option String → Except ServiceError (SearchPage ν))
    (lists : ν → MemberRow → Prop) (wanted : MemberRow → Prop) : Prop :=
  ∃ enough, ∀ fuel, enough ≤ fuel → ∃ items rows, follow call fuel 0 none = .ok items ∧
    List.Forall₂ lists items rows ∧ (rows.Pairwise fun a b => rowKey a < rowKey b) ∧
      ∀ m, m ∈ rows ↔ wanted m

theorem listsExactly_of_serves (h : ServesPages call rows lists continues)
    (hkeys : (rows.map rowKey).Nodup) (hstart : continues 0 none none)
    (hwanted : ∀ m, m ∈ rows ↔ wanted m) : ListsExactly call lists wanted := by
  refine ⟨rows.length + 1, fun fuel hfuel => ?_⟩
  obtain ⟨items, hitems, hlists⟩ := follow_lists h hkeys hstart (Nat.lt_of_succ_le hfuel)
  exact ⟨items, inOrder rowKey rows, hitems, hlists, pairwise_inOrder hkeys,
    fun m => (perm_inOrder rows).mem_iff.trans (hwanted m)⟩

/-- A listing that finds something finds something wanted, if it is exact. -/
theorem exists_wanted (h : ServesPages call rows lists continues)
    (hkeys : (rows.map rowKey).Nodup) (hstart : continues 0 none none)
    (hexact : ListsExactly call lists wanted) (hrows : rows ≠ []) : ∃ m, wanted m := by
  obtain ⟨enough, hexact⟩ := hexact
  have hfuel : rows.length < max enough (rows.length + 1) := by omega
  obtain ⟨items, hitems, hlists⟩ := follow_lists h hkeys hstart hfuel
  obtain ⟨items', wantedRows, hitems', hlists', -, hwanted⟩ := hexact _ (le_max_left _ _)
  rw [hitems] at hitems'
  cases hitems'
  have hlength := hlists.length_eq.symm.trans hlists'.length_eq
  rw [(perm_inOrder rows).length_eq] at hlength
  have hpos : 0 < wantedRows.length := hlength ▸ List.length_pos_of_ne_nil hrows
  exact ⟨wantedRows[0], (hwanted _).mp (List.getElem_mem hpos)⟩

theorem not_listsExactly_of_error {e : ServiceError} (h : call 0 none = .error e) :
    ¬ ListsExactly call lists wanted := by
  rintro ⟨enough, hexact⟩
  obtain ⟨items, _, hitems, -⟩ := hexact (enough + 1) (Nat.le_succ _)
  unfold follow at hitems
  rw [h] at hitems
  cases hitems

end Listing

/-- Every listing of an administrator is exact. -/
def AdminExact (env : HierarchyEnv) (rawQuery : String) : Prop :=
  ∀ (run : SearchRun) (viewFinancials : Bool), run.Sound →
    ListsExactly
      (fun i cursor =>
        adminSearch env (run.dbs i) run.actor viewFinancials rawQuery cursor (run.clock i))
      AdminLists
      fun m => m ∈ existing (run.dbs 0) run.actor.tenantId (run.clock 0) ∧
        Holds env (trim rawQuery) m

/-- Every listing of a member is exact. -/
def MemberExact (env : HierarchyEnv) (rawQuery : String) : Prop :=
  ∀ (run : SearchRun) (root : MemberRow), run.Sound → run.Rooted root →
    ListsExactly
      (fun i cursor => memberDirectSearch env (run.dbs i) run.actor (run.ivs i) root.id rawQuery
        cursor (run.clock i))
      (DirectLists env run.actor root.id (run.clock 0))
      fun m => m ∈ existing (run.dbs 0) run.actor.tenantId (run.clock 0) ∧
        m.sponsorMembershipId = some root.id ∧ Holds env (trim rawQuery) m

theorem checkQuery_eq (h : 2 ≤ utf16Length (trim rawQuery) ∧ utf16Length (trim rawQuery) ≤ 120) :
    checkQuery rawQuery = .ok (trim rawQuery) := by
  unfold checkQuery
  simp only
  rw [if_neg (by omega)]

theorem adminExact_of_plain (hlower : LowersLetters env)
    (hquery : checkQuery rawQuery = .ok (trim rawQuery)) (h : PlainQuery (trim rawQuery)) :
    AdminExact env rawQuery := by
  intro run viewFinancials hrun
  have hparameter := checkParameter_eq fun hc => (h _ hc).2 rfl
  refine listsExactly_of_serves (adminSearch_serves hrun hquery hparameter)
    ((nodup_rowKey ..).sublist (List.filter_sublist.map _)) .start fun m => ?_
  rw [List.mem_filter, found_iff hlower fun c hc => (h c hc).1]

theorem memberExact_of_plain (hlower : LowersLetters env)
    (hquery : checkQuery rawQuery = .ok (trim rawQuery)) (h : PlainQuery (trim rawQuery)) :
    MemberExact env rawQuery := by
  intro run root hrun hroot
  have hparameter := checkParameter_eq fun hc => (h _ hc).2 rfl
  refine listsExactly_of_serves (memberDirectSearch_serves hrun hroot hquery hparameter)
    ((nodup_rowKey ..).sublist (List.filter_sublist.map _)) .start fun m => ?_
  rw [List.mem_filter, Bool.and_eq_true, found_iff hlower fun c hc => (h c hc).1]
  refine and_congr_right fun hm => and_congr_left' ?_
  unfold isVisibleDirect
  simp only [Bool.and_eq_true, decide_eq_true_eq]
  constructor
  · exact fun hvisible => hvisible.1.1
  · intro hsponsor
    obtain ⟨hunder, hdepth⟩ := hroot.placed m hm hsponsor
    exact ⟨⟨hsponsor, hunder⟩, hdepth⟩

/-! ## Queries that are not plain -/

namespace Sample

def actor : ActorContext :=
  ⟨"00000000-0000-4000-8000-000000000001", "00000000-0000-4000-8000-000000000002"⟩

def rootId : String := "00000000-0000-4000-8000-000000000003"

def recruitId : String := "00000000-0000-4000-8000-000000000004"

def root (name : String) : MemberRow :=
  ⟨rootId, actor.tenantId, actor.userId, none, name, ["root"], 0, .active, 0, name⟩

def recruit (name : String) : MemberRow :=
  ⟨recruitId, actor.tenantId, "00000000-0000-4000-8000-000000000005", some rootId, name,
    ["root", "recruit"], 1, .active, 0, name⟩

def alone (name : String) : Table MemberRow :=
  ⟨[root name], List.nodup_singleton _, List.pairwise_singleton _ _⟩

theorem rootId_ne : rootId ≠ recruitId := by decide

def pair (name : String) : Table MemberRow where
  rows := [root "Ada", recruit name]
  keys_nodup := List.nodup_cons.mpr
    ⟨fun h => rootId_ne (List.mem_singleton.mp h), List.nodup_singleton _⟩
  no_clash := List.pairwise_cons.mpr ⟨fun _ _ => rfl, List.pairwise_singleton _ _⟩

/-- All calls meet these members at one instant. -/
def searchRun (members : Table MemberRow) : SearchRun where
  actor := actor
  dbs _ := ⟨[⟨actor.tenantId, "Ada's", "USD", "UTC"⟩], members, []⟩
  clock _ := 0
  ivs _ := List.replicate 12 0

theorem representable_zero : IsoDate.Representable 0 := by
  unfold IsoDate.Representable
  decide

theorem snapshotAt_zero : SnapshotAt 0 := by
  refine ⟨representable_zero, ?_⟩
  unfold IsoDate.Representable
  decide

theorem stored_root (name : String) : (root name).keysetRow.Stored :=
  ⟨representable_zero, (by decide : isUuid rootId = true)⟩

theorem stored_recruit (name : String) : (recruit name).keysetRow.Stored :=
  ⟨representable_zero, (by decide : isUuid recruitId = true)⟩

theorem sound {members : Table MemberRow} (h : ∀ m ∈ members, m.keysetRow.Stored)
    (hsmall : members.rows.length ≤ MAX_SAFE_INTEGER) : (searchRun members).Sound where
  actor := (by decide : validateActor actor = true)
  tenants _ := ⟨⟨actor.tenantId, "Ada's", "USD", "UTC"⟩, by simp [readTenant, searchRun]⟩
  stored _ := h
  sized _ := ⟨hsmall, Nat.zero_le _⟩
  snapshot := snapshotAt_zero
  inTime _ := (by decide : (0 : Int) < 0 + HIERARCHY_REFERENCE_TTL_MS)
  same _ := List.Perm.refl _
  ivs _ := rfl

theorem sound_alone (name : String) : (searchRun (alone name)).Sound := by
  refine sound (fun m hm => ?_) (by simp [alone, MAX_SAFE_INTEGER])
  rw [List.mem_singleton.mp hm]
  exact stored_root name

theorem sound_pair (name : String) : (searchRun (pair name)).Sound := by
  refine sound (fun m hm => ?_) (by simp [pair, MAX_SAFE_INTEGER])
  rcases List.mem_pair.mp hm with rfl | rfl
  · exact stored_root "Ada"
  · exact stored_recruit name

theorem mem_alone (name : String) : root name ∈ existing ((searchRun (alone name)).dbs 0)
    (searchRun (alone name)).actor.tenantId ((searchRun (alone name)).clock 0) :=
  List.mem_filter.mpr ⟨List.mem_singleton_self _, decide_eq_true ⟨rfl, le_rfl⟩⟩

theorem mem_pair {name : String} {m : MemberRow} (hm : m = root "Ada" ∨ m = recruit name) :
    m ∈ existing ((searchRun (pair name)).dbs 0) (searchRun (pair name)).actor.tenantId
      ((searchRun (pair name)).clock 0) := by
  refine List.mem_filter.mpr ⟨List.mem_pair.mpr hm, decide_eq_true ?_⟩
  rcases hm with rfl | rfl
  · exact ⟨rfl, le_rfl⟩
  · exact ⟨rfl, le_rfl⟩

theorem rooted (name : String) : (searchRun (pair name)).Rooted (root "Ada") where
  mem := mem_pair (.inl rfl)
  user := rfl
  placed m hm hsponsor := by
    rcases List.mem_pair.mp (List.mem_of_mem_filter hm) with rfl | rfl
    · cases hsponsor
    · exact ⟨by simp [under, root, recruit], rfl⟩

end Sample

theorem checkParameter_error (h : '\x00' ∈ query.toList) : ∃ e, checkParameter query = .error e :=
  ⟨_, if_pos (by simpa using h)⟩

theorem adminSearch_error {run : SearchRun} (hrun : run.Sound) (viewFinancials : Bool)
    (hquery : checkQuery rawQuery = .ok query) {e : ServiceError}
    (he : checkParameter query = .error e) :
    adminSearch env (run.dbs 0) run.actor viewFinancials rawQuery none (run.clock 0) =
      .error e := by
  have hstart : Continues env.crypto env.secret parseKeyset run.actor
      (searchBinding env.crypto query) (run.clock 0) 0 none none := .start
  have hsnapshot : snapshotOf none (run.clock 0) = .ok (snapshotText (run.clock 0)) :=
    hstart.snapshot_eq hrun.snapshot fun _ => rfl
  have hafter := hstart.after_eq (hrun.inTime 0)
  simp only [adminSearch, readSearchRows, bind, Except.bind, hquery, hstart.filter_eq, hsnapshot,
    hafter, he]

theorem memberDirectSearch_error {run : SearchRun} {root : MemberRow} (hrun : run.Sound)
    (hroot : run.Rooted root) (hquery : checkQuery rawQuery = .ok query) {e : ServiceError}
    (he : checkParameter query = .error e) :
    memberDirectSearch env (run.dbs 0) run.actor (run.ivs 0) root.id rawQuery none (run.clock 0) =
      .error e := by
  have hstart : Continues env.crypto env.secret (parseMemberKeyset env.crypto env.secret) run.actor
      (memberSearchBinding env.crypto root.id query) (run.clock 0) 0 none none := .start
  have hsnapshot : snapshotOf none (run.clock 0) = .ok (snapshotText (run.clock 0)) :=
    hstart.snapshot_eq hrun.snapshot fun _ => rfl
  have hafter := hstart.after_eq (hrun.inTime 0)
  have hrootUuid : isUuid root.id = true := (stored_of_existing hrun hroot.mem).id
  have hcheck : checkRoot root.id = .ok () := if_neg (by rw [hrootUuid]; decide)
  obtain ⟨tenant, htenant⟩ := hrun.tenants 0
  have hresolve := resolveMemberRoot_eq hroot.mem hroot.user
  simp only [memberDirectSearch, readMemberDirectSearch, bind, Except.bind, hcheck, hquery,
    hsnapshot, hafter, instantOf_snapshotText hrun.snapshot, hresolve, htenant, he]

theorem plain_of_adminExact (hlower : LowersLetters env)
    (hquery : checkQuery rawQuery = .ok (trim rawQuery)) (h : AdminExact env rawQuery) :
    PlainQuery (trim rawQuery) := by
  have hrun := Sample.sound_alone (sampleOf (trim rawQuery))
  have hexact := h _ false hrun
  by_cases hnul : '\x00' ∈ (trim rawQuery).toList
  · obtain ⟨e, he⟩ := checkParameter_error hnul
    exact absurd hexact (not_listsExactly_of_error (adminSearch_error hrun false hquery he))
  · have hparameter := checkParameter_eq hnul
    have hfound := ilike_sampleOf hlower (trim rawQuery)
    obtain ⟨m, hm, hholds⟩ := exists_wanted (adminSearch_serves hrun hquery hparameter)
      ((nodup_rowKey ..).sublist (List.filter_sublist.map _)) .start hexact
      (List.ne_nil_of_mem (List.mem_filter.mpr
        ⟨Sample.mem_alone _, by simp [found, Sample.root, hfound]⟩))
    have hroot : m = Sample.root (sampleOf (trim rawQuery)) :=
      List.mem_singleton.mp (List.mem_of_mem_filter hm)
    rw [hroot] at hholds
    have hliteral := not_wild_of_holdsText hlower (hholds.elim id id)
    exact fun c hc => ⟨hliteral c hc, fun heq => hnul (heq ▸ hc)⟩

theorem plain_of_memberExact (hlower : LowersLetters env)
    (hquery : checkQuery rawQuery = .ok (trim rawQuery)) (h : MemberExact env rawQuery) :
    PlainQuery (trim rawQuery) := by
  have hrun := Sample.sound_pair (sampleOf (trim rawQuery))
  have hroot := Sample.rooted (sampleOf (trim rawQuery))
  have hexact := h _ _ hrun hroot
  by_cases hnul : '\x00' ∈ (trim rawQuery).toList
  · obtain ⟨e, he⟩ := checkParameter_error hnul
    exact absurd hexact (not_listsExactly_of_error (memberDirectSearch_error hrun hroot hquery he))
  · have hparameter := checkParameter_eq hnul
    have hfound := ilike_sampleOf hlower (trim rawQuery)
    obtain ⟨m, hm, hsponsor, hholds⟩ := exists_wanted
      (memberDirectSearch_serves hrun hroot hquery hparameter)
      ((nodup_rowKey ..).sublist (List.filter_sublist.map _)) .start hexact
      (List.ne_nil_of_mem (List.mem_filter.mpr
        ⟨Sample.mem_pair (.inr rfl), by
          simp [found, isVisibleDirect, under, Sample.root, Sample.recruit, hfound]⟩))
    rcases List.mem_pair.mp (List.mem_of_mem_filter hm) with hm' | hm'
    · rw [hm'] at hsponsor
      cases hsponsor
    · rw [hm'] at hholds
      have hliteral := not_wild_of_holdsText hlower (hholds.elim id id)
      exact fun c hc => ⟨hliteral c hc, fun heq => hnul (heq ▸ hc)⟩

/-- A search of two to 120 characters lists exactly the members that hold the query in every state,
for administrators and for members alike, exactly if the query has no `%`, no `_`, no backslash and
no NUL. -/
theorem search_exact_iff (hlower : LowersLetters env)
    (hlength : 2 ≤ utf16Length (trim rawQuery) ∧ utf16Length (trim rawQuery) ≤ 120) :
    (AdminExact env rawQuery ↔ PlainQuery (trim rawQuery)) ∧
      (MemberExact env rawQuery ↔ PlainQuery (trim rawQuery)) := by
  have hquery := checkQuery_eq hlength
  exact ⟨⟨plain_of_adminExact hlower hquery, adminExact_of_plain hlower hquery⟩,
    plain_of_memberExact hlower hquery, memberExact_of_plain hlower hquery⟩

end Exact

/-! ## Two queries -/

namespace Demo

/-- Letters of ASCII only. -/
def searchEnv : HierarchyEnv where
  crypto := crypto
  secret := secret
  upper c := [c.toUpper]
  isUpperLetter := Char.isUpper
  nfc := id
  monthKey _ _ := "2026-01"
  lower := Char.toLower

theorem toLower_of_wild {c : Char} (h : isWild c = true) : c.toLower = c := by
  simp only [isWild, Bool.or_eq_true, decide_eq_true_eq] at h
  rcases h with (rfl | rfl) | rfl <;> rfl

/-- A letter is made of an upper-case letter only, and is not wild. -/
theorem isWild_toLower (c : Char) : isWild c.toLower = isWild c := by
  by_cases h : 'A'.val ≤ c.val ∧ c.val ≤ 'Z'.val
  · have hall : ∀ n : Fin 26, isWild (Char.ofNat (65 + n)).toLower = isWild (Char.ofNat (65 + n)) := by
      decide
    have hlow : 65 ≤ c.toNat := UInt32.le_iff_toNat_le.mp h.1
    have hhigh : c.toNat ≤ 90 := UInt32.le_iff_toNat_le.mp h.2
    have heq : c = Char.ofNat (65 + (⟨c.toNat - 65, by omega⟩ : Fin 26)) := by
      rw [show 65 + (c.toNat - 65) = c.toNat by omega, Char.ofNat_toNat]
    rw [heq]
    exact hall _
  · have hsame : c.toLower = c := dif_neg h
    rw [hsame]

theorem lowersLetters : LowersLetters searchEnv :=
  ⟨fun _ h => toLower_of_wild h, isWild_toLower⟩

end Demo

theorem search_exact_ayla : AdminExact Demo.searchEnv " ayla" ∧ MemberExact Demo.searchEnv " ayla" := by
  have hlength : 2 ≤ utf16Length (trim " ayla") ∧ utf16Length (trim " ayla") ≤ 120 := by
    decide
  have hall : (trim " ayla").toList.all (fun c => !isWild c && c != '\x00') = true := by
    decide
  have hplain : PlainQuery (trim " ayla") := by
    intro c hc
    have hc' := List.all_eq_true.mp hall c hc
    simpa using hc'
  obtain ⟨hadmin, hmember⟩ := search_exact_iff Demo.lowersLetters hlength
  exact ⟨hadmin.mpr hplain, hmember.mpr hplain⟩

/-- Two underscores are found in every name of two letters. -/
theorem not_search_exact :
    ¬ AdminExact Demo.searchEnv "__" ∧ ¬ MemberExact Demo.searchEnv "__" := by
  have hquery : checkQuery "__" = .ok (trim "__") := checkQuery_eq (by decide)
  have hmem : '_' ∈ (trim "__").toList := by decide
  constructor
  · intro h
    have hplain := plain_of_adminExact Demo.lowersLetters hquery h
    exact absurd (hplain '_' hmem).1 (by decide)
  · intro h
    have hplain := plain_of_memberExact Demo.lowersLetters hquery h
    exact absurd (hplain '_' hmem).1 (by decide)

end Refearn.Hierarchy
