import Refearn.Hierarchy.Proofs.Keysets
import Refearn.Hierarchy.Proofs.Tokens
/-!
# References are exact capabilities

What the service makes a reference of is verified until it expires and only where it was
made for, and what is verified was made by the service.
-/

namespace Refearn.Hierarchy

open Support

section

variable (crypto : NodeCrypto) (secret : String)

/-! ## Creating -/

theorem plain_sha256 (value : String) : Plain (sha256 crypto value) :=
  plain_of_isSha256Hex (isSha256Hex_sha256 crypto value)

/-- A snapshot within the window of which a date can still be written. -/
structure SnapshotAt (t : Int) : Prop where
  snapshot : IsoDate.Representable t
  expiry : IsoDate.Representable (t + HIERARCHY_REFERENCE_TTL_MS)

def snapshotText (t : Int) : String := String.ofList (IsoDate.toISOString t)

theorem expiresAtFor_none {t : Int} (h : SnapshotAt t) :
    expiresAtFor (snapshotText t) none =
      .ok (snapshotText (t + HIERARCHY_REFERENCE_TTL_MS)) := by
  have hwindow : withinWindow t (snapshotText (t + HIERARCHY_REFERENCE_TTL_MS)) = true := by
    refine withinWindow_iff.mpr ⟨_, canonicalDate_toISOString h.expiry, ?_, le_rfl⟩
    unfold HIERARCHY_REFERENCE_TTL_MS
    omega
  unfold expiresAtFor
  unfold snapshotText at hwindow ⊢
  rw [canonicalDate_toISOString h.snapshot]
  simp only [toISOString_eq h.expiry, bind, Except.bind]
  rw [if_pos hwindow]

/-- The payload of a reference that expires with its snapshot's window. -/
def windowPayload (kind : ReferenceKind) (actor : ActorContext) (parentRef subject : String)
    (t : Int) : Payload where
  kind := kind
  viewerUserId := actor.userId
  tenantId := actor.tenantId
  parentFingerprint := sha256 crypto parentRef
  snapshotAt := snapshotText t
  subject := subject
  expiresAt := snapshotText (t + HIERARCHY_REFERENCE_TTL_MS)

/-- What a reference has to be made of. -/
structure Referable (kind : ReferenceKind) (actor : ActorContext) (parentRef subject : String)
    (t : Int) : Prop where
  actorValid : validateActor actor = true
  parentValid : validateParentRef parentRef = true
  subjectValid : validateSubject subject = true
  handle : kind = .member → subject.toList.length = HIERARCHY_SIGNATURE_LENGTH
  snapshot : SnapshotAt t

/-- A token within the bound is verified where its payload binds it, until it expires. -/
theorem verify_of_authentic {crypto : NodeCrypto} {secret token : String}
    {binding : VerifyReferenceBinding} {now expiresMs : Int} {payload : Payload}
    (hne : token ≠ "") (hlength : token.toList.length ≤ HIERARCHY_TOKEN_MAX_LENGTH)
    (hactor : validateActor binding.actor = true)
    (hsnapshot : ∃ t, canonicalDate binding.snapshotAt = some t)
    (hparent : validateParentRef binding.parentRef = true)
    (hauthentic : authenticPayload crypto secret token = some payload)
    (hbinds : bindsTo crypto binding payload = true)
    (hexpiry : canonicalDate payload.expiresAt = some expiresMs) (hnow : now < expiresMs) :
    verifyHierarchyReferenceToken crypto secret token binding now = .ok payload := by
  obtain ⟨t, ht⟩ := hsnapshot
  have hbound : ¬token.toList.length > HIERARCHY_TOKEN_MAX_LENGTH := not_lt.mpr hlength
  unfold verifyHierarchyReferenceToken
  simp only [hne, hbound, hactor, ht, hparent, Option.isNone_some, Bool.not_true,
    decide_false, Bool.or_self, Bool.false_eq_true, if_false, hauthentic, hbinds, hexpiry]
  exact if_neg (not_le.mpr hnow)

section Referable

variable {crypto secret} {kind : ReferenceKind} {actor : ActorContext}
  {parentRef subject : String} {t : Int}

theorem Referable.validPayload (h : Referable kind actor parentRef subject t) :
    validPayload (windowPayload crypto kind actor parentRef subject t) = true := by
  have hactor := h.actorValid
  unfold validateActor at hactor
  rw [Bool.and_eq_true] at hactor
  refine (validPayload_iff _).mpr ⟨hactor.1, hactor.2, isSha256Hex_sha256 crypto parentRef,
    h.subjectValid, h.handle, t, canonicalDate_toISOString h.snapshot.snapshot, ?_⟩
  refine withinWindow_iff.mpr ⟨_, canonicalDate_toISOString h.snapshot.expiry, ?_, le_rfl⟩
  unfold HIERARCHY_REFERENCE_TTL_MS
  omega

theorem Referable.buildPayload_eq (h : Referable kind actor parentRef subject t) :
    buildPayload crypto kind
      { actor, parentRef, snapshotAt := snapshotText t, subject, expiresAt := none } =
        .ok (windowPayload crypto kind actor parentRef subject t) := by
  have hdate : canonicalDate (snapshotText t) = some t :=
    canonicalDate_toISOString h.snapshot.snapshot
  unfold buildPayload
  simp only [h.actorValid, hdate, h.subjectValid, h.parentValid, Option.isNone_some, Bool.not_true,
    Bool.or_self, Bool.false_eq_true, if_false, expiresAtFor_none h.snapshot]
  rfl

/-- The token of what a reference is made of. -/
def windowToken (crypto : NodeCrypto) (secret : String) (kind : ReferenceKind)
    (actor : ActorContext) (parentRef subject : String) (t : Int) : String :=
  tokenOf crypto secret (encodePayload (windowPayload crypto kind actor parentRef subject t))

theorem Referable.create_eq (h : Referable kind actor parentRef subject t)
    (hkind : kind ≠ .member) :
    createHierarchyReferenceToken crypto secret kind
      { actor, parentRef, snapshotAt := snapshotText t, subject, expiresAt := none } =
        .ok (windowToken crypto secret kind actor parentRef subject t) := by
  unfold createHierarchyReferenceToken
  rw [if_neg hkind, h.buildPayload_eq]
  simp only [bind, Except.bind, signHierarchyReferenceToken_eq crypto secret h.validPayload]
  rfl

theorem Referable.length_token (h : Referable kind actor parentRef subject t) :
    (windowToken crypto secret kind actor parentRef subject t).toList.length ≤
      HIERARCHY_TOKEN_MAX_LENGTH := by
  unfold windowToken
  exact length_tokenOf crypto secret h.validPayload

theorem Referable.authenticPayload_eq (h : Referable kind actor parentRef subject t) :
    authenticPayload crypto secret (windowToken crypto secret kind actor parentRef subject t) =
      some (windowPayload crypto kind actor parentRef subject t) :=
  authenticPayload_tokenOf crypto secret h.validPayload

theorem windowToken_ne_empty : windowToken crypto secret kind actor parentRef subject t ≠ "" := by
  intro hempty
  have hchars := congrArg String.toList hempty
  unfold windowToken at hchars
  rw [toList_tokenOf] at hchars
  simp at hchars

theorem bindsTo_windowPayload :
    bindsTo crypto { actor, parentRef, snapshotAt := snapshotText t, kind }
      (windowPayload crypto kind actor parentRef subject t) = true := by
  unfold bindsTo windowPayload
  simp

theorem Referable.verify_eq (h : Referable kind actor parentRef subject t) {now : Int}
    (hnow : now < t + HIERARCHY_REFERENCE_TTL_MS) :
    verifyHierarchyReferenceToken crypto secret
      (windowToken crypto secret kind actor parentRef subject t)
      { actor, parentRef, snapshotAt := snapshotText t, kind } now =
        .ok (windowPayload crypto kind actor parentRef subject t) := by
  have hdate : ∃ s, canonicalDate (snapshotText t) = some s :=
    ⟨t, canonicalDate_toISOString h.snapshot.snapshot⟩
  have hexpiry : canonicalDate (snapshotText (t + HIERARCHY_REFERENCE_TTL_MS)) =
      some (t + HIERARCHY_REFERENCE_TTL_MS) :=
    canonicalDate_toISOString h.snapshot.expiry
  apply verify_of_authentic windowToken_ne_empty h.length_token
  · exact h.actorValid
  · exact hdate
  · exact h.parentValid
  · exact h.authenticPayload_eq
  · exact bindsTo_windowPayload
  · exact hexpiry
  · exact hnow

/-- Tokens have the form that the member views hand out. -/
theorem Referable.parse_eq (h : Referable kind actor parentRef subject t) :
    parseOpaqueMemberNodeRef (windowToken crypto secret kind actor parentRef subject t) =
      .ok (windowToken crypto secret kind actor parentRef subject t) := by
  have hvalid : Hierarchy.validPayload (windowPayload crypto kind actor parentRef subject t) =
      true := h.validPayload
  have hlength : (windowToken crypto secret kind actor parentRef subject t).toList.length ≤
      HIERARCHY_TOKEN_MAX_LENGTH := h.length_token
  have hbytes := encodePayload_bytes_ne hvalid
  have hcanonical : ∀ bytes : List UInt8, bytes ≠ [] →
      isCanonicalBase64Url (Base64Url.encode bytes) = true := by
    intro bytes hne
    unfold isCanonicalBase64Url
    rw [Base64Url.decode_encode]
    simp [hne]
  have hsignature : ∀ encoded, hierarchySignature crypto secret encoded ≠ [] := by
    intro encoded
    exact List.ne_nil_of_length_pos (by rw [length_hierarchySignature]; decide)
  unfold parseOpaqueMemberNodeRef
  refine if_pos ?_
  unfold isOpaqueMemberNodeRef
  rw [Bool.and_eq_true, decide_eq_true_eq]
  refine ⟨hlength, ?_⟩
  unfold windowToken encodePayload
  rw [splitOn_tokenOf]
  have hletters := isBase64url_of_bytes hbytes
  rw [toList_base64url] at hletters ⊢
  simp only [hletters, isBase64url_signature, length_encodedSignature, hcanonical _ hbytes,
    hcanonical _ (hsignature _), decide_true, Bool.and_self]

end Referable

/-! ## Parents -/

/-- A text of at most `n` graphic characters. -/
structure Graphic (n : Nat) (text : String) : Prop where
  ne_nil : text.toList ≠ []
  length : text.toList.length ≤ n
  graphic : ∀ c ∈ text.toList, isGraphic c = true

theorem graphic_of_all {n : Nat} {text : String}
    (h : text.toList ≠ [] ∧ text.toList.length ≤ n ∧ text.toList.all isGraphic = true) :
    Graphic n text :=
  ⟨h.1, h.2.1, List.all_eq_true.mp h.2.2⟩

theorem Graphic.append {m n : Nat} {s t : String} (hs : Graphic m s) (ht : Graphic n t) :
    Graphic (m + n) (s ++ t) := by
  refine ⟨?_, ?_, ?_⟩
  · rw [String.toList_append]
    exact List.append_ne_nil_of_left_ne_nil hs.ne_nil _
  · rw [String.toList_append, List.length_append]
    exact Nat.add_le_add hs.length ht.length
  · intro c hc
    rw [String.toList_append] at hc
    exact (List.mem_append.mp hc).elim (hs.graphic c) (ht.graphic c)

theorem Graphic.validateParentRef {n : Nat} {text : String} (h : Graphic n text)
    (hn : n ≤ HIERARCHY_PARENT_REF_MAX_LENGTH) : validateParentRef text = true := by
  unfold Hierarchy.validateParentRef
  rw [Bool.and_eq_true, Bool.and_eq_true, decide_eq_true_eq, decide_eq_true_eq,
    List.all_eq_true]
  exact ⟨⟨h.ne_nil, h.length.trans hn⟩, h.graphic⟩

theorem graphic_of_isUuid {text : String} (h : isUuid text = true) : Graphic 36 text := by
  have hlength := length_of_isUuid h
  refine ⟨List.ne_nil_of_length_pos (by omega), hlength.le, ?_⟩
  intro c hc
  have hchar := isUuidChar_of_mem h hc
  unfold isUuidChar at hchar
  rcases (Bool.or_eq_true ..).mp hchar with hdigit | hdash
  · have hall : "0123456789abcdef".toList.all isGraphic = true := by decide
    exact List.all_eq_true.mp hall c (List.contains_iff_mem.mp hdigit)
  · unfold isDash at hdash
    rw [decide_eq_true_eq] at hdash
    rw [hdash]
    decide

theorem graphic_sha256 (value : String) : Graphic 64 (sha256 crypto value) := by
  have hhex := isSha256Hex_sha256 crypto value
  have hlength := length_of_isSha256Hex hhex
  refine ⟨List.ne_nil_of_length_pos (by omega), hlength.le, ?_⟩
  intro c hc
  obtain ⟨p, hp, hpc⟩ := exists_of_fits hhex hc
  rw [(List.mem_replicate.mp hp).2] at hpc
  have hall : "0123456789abcdef".toList.all isGraphic = true := by decide
  exact List.all_eq_true.mp hall c (List.contains_iff_mem.mp hpc)

theorem graphic_of_isOpaque {text : String} (h : isOpaqueMemberNodeRef text = true) :
    Graphic 2048 text := by
  have hletter : ∀ cs, isBase64url cs = true → ∀ c ∈ cs, isGraphic c = true := by
    intro cs hcs c hc
    unfold isBase64url at hcs
    rw [Bool.and_eq_true, List.all_eq_true] at hcs
    have hbounds := Base64Url.isLetter_bounds (hcs.2 c hc)
    unfold isGraphic
    rw [Bool.and_eq_true, decide_eq_true_eq, decide_eq_true_eq]
    exact ⟨hbounds.1, hbounds.2.1⟩
  have hjoin : ['.'].intercalate (text.toList.splitOn '.') = text.toList :=
    List.intercalate_splitOn '.'
  unfold isOpaqueMemberNodeRef at h
  rw [Bool.and_eq_true, decide_eq_true_eq] at h
  obtain ⟨hlength, hparts⟩ := h
  split at hparts
  · next payload signature heq =>
      simp only [Bool.and_eq_true] at hparts
      rw [heq, List.intercalate_cons_cons, List.intercalate_singleton] at hjoin
      refine ⟨?_, hlength, ?_⟩
      · rw [← hjoin]
        simp
      · intro c hc
        rw [← hjoin, List.mem_append, List.mem_append, List.mem_singleton] at hc
        rcases hc with (hpayload | rfl) | hsignature
        · exact hletter _ hparts.1.1.1.1 c hpayload
        · decide
        · exact hletter _ hparts.1.1.1.2 c hsignature
  · cases hparts

theorem Graphic.mono {m n : Nat} {text : String} (h : Graphic m text) (hmn : m ≤ n) :
    Graphic n text :=
  ⟨h.ne_nil, h.length.trans hmn, h.graphic⟩

theorem graphic_branchBinding {parentRef binding : String} {focusId : Option String}
    (h : branchBinding parentRef focusId = .ok binding) : Graphic 2048 binding := by
  have hroot : Graphic 36 TENANT_ROOT_REF := graphic_of_all (by decide)
  have hfull : Graphic 20 "admin-children:full:" := graphic_of_all (by decide)
  have hfocused : Graphic 23 "admin-children:focused:" := graphic_of_all (by decide)
  have hcolon : Graphic 1 ":" := graphic_of_all (by decide)
  unfold branchBinding at h
  split_ifs at h with hrefused
  · cases h
  · have hparent : Graphic 36 parentRef := by
      rcases not_and_or.mp hrefused with heq | huuid
      · rw [not_not.mp heq]
        exact hroot
      · exact graphic_of_isUuid (Bool.eq_true_of_not_eq_false huuid)
    cases focusId with
    | none =>
        cases h
        exact (hfull.append hparent).mono (by decide)
    | some focusId =>
        simp only at h
        split_ifs at h with hfocus
        · cases h
        · cases h
          have huuid := graphic_of_isUuid
            (Bool.eq_true_of_not_eq_false fun heq => hfocus (.inl heq))
          exact (((hfocused.append huuid).append hcolon).append hparent).mono (by decide)

theorem graphic_listBinding {scope : AdminScope} {focusId : Option String}
    (h : assertScope scope focusId = true) : Graphic 2048 (listBinding scope focusId) := by
  have hlist : Graphic 11 "admin-list:" := graphic_of_all (by decide)
  have hcolon : Graphic 1 ":" := graphic_of_all (by decide)
  have hscope : Graphic 7 scope.text := by
    cases scope
    · exact graphic_of_all (by decide)
    · exact graphic_of_all (by decide)
  have hfocus : Graphic 36 (focusId.getD TENANT_ROOT_REF) := by
    cases scope with
    | full =>
        cases focusId with
        | none => exact graphic_of_all (by decide)
        | some focusId => cases h
    | focused =>
        cases focusId with
        | none => cases h
        | some focusId => exact graphic_of_isUuid h
  exact (((hlist.append hscope).append hcolon).append hfocus).mono (by decide)

/-- Every parent that the service makes a reference under is one that references can have. -/
theorem Reference.validateParentRef_of {ref : Reference} {parentRef : String}
    (hstored : ref.Stored) (h : ref.parentRef crypto = .ok parentRef) :
    validateParentRef parentRef = true := by
  have hgraphic : Graphic 2048 parentRef := by
    have hopaque : ∀ text, parseOpaqueMemberNodeRef text = .ok parentRef →
        Graphic 2048 parentRef := by
      intro text htext
      unfold parseOpaqueMemberNodeRef at htext
      split_ifs at htext with hopaque
      cases htext
      exact graphic_of_isOpaque hopaque
    have htree : Graphic 12 "member-tree:" := graphic_of_all (by decide)
    have hdirect : Graphic 21 "member-direct-search:" := graphic_of_all (by decide)
    have hsearch : Graphic 7 "search:" := graphic_of_all (by decide)
    have hcolon : Graphic 1 ":" := graphic_of_all (by decide)
    cases ref with
    | branchCursor _ _ _ => exact graphic_branchBinding h
    | branchCluster _ _ _ => exact graphic_branchBinding h
    | listCursor scope focusId _ =>
        unfold Reference.parentRef at h
        simp only at h
        split_ifs at h with hscope
        · cases h
          exact graphic_listBinding hscope
        · cases h
    | searchCursor query _ =>
        cases h
        exact (hsearch.append (graphic_sha256 crypto query)).mono (by decide)
    | memberNode root _ =>
        cases h
        exact (htree.append (graphic_of_isUuid hstored.1)).mono (by decide)
    | memberCursor _ _ _ => exact hopaque _ h
    | memberSearchCursor root query _ _ =>
        cases h
        exact (((hdirect.append (graphic_of_isUuid hstored.1)).append hcolon).append
          (graphic_sha256 crypto query)).mono (by decide)
    | memberCluster _ _ _ => exact hopaque _ h
  exact hgraphic.validateParentRef (by decide)

/-! ## Subjects -/

/-- The pair that continues after a row. -/
def KeysetRow.pair (row : KeysetRow) : Keyset := ⟨snapshotText row.joinedAt, row.id⟩

theorem keysetAfter_eq {row : Option KeysetRow} (h : ∀ r ∈ row, r.Stored) :
    keysetAfter row = .ok (row.map KeysetRow.pair) := by
  cases row with
  | none => rfl
  | some r =>
      have hdate := toISOString_eq (h r rfl).joinedAt
      unfold keysetAfter KeysetRow.keyset
      simp only [hdate, bind, Except.bind]
      rfl

theorem valid_pair {row : Option KeysetRow} (h : ∀ r ∈ row, r.Stored) :
    ∀ k ∈ row.map KeysetRow.pair, k.Valid := by
  intro k hk
  obtain ⟨r, hr, rfl⟩ := Option.mem_map.mp hk
  have hstored := h r hr
  have hdate : canonicalDate (snapshotText r.joinedAt) = some r.joinedAt :=
    canonicalDate_toISOString hstored.joinedAt
  refine ⟨?_, hstored.id⟩
  unfold KeysetRow.pair
  rw [hdate]
  rfl

/-- A member's handle is one signature long. -/
theorem memberReference_spec {input : MemberReferenceInput} {handle : String}
    (h : deriveHierarchyMemberReference crypto secret input = .ok handle) :
    validateSubject handle = true ∧ handle.toList.length = HIERARCHY_SIGNATURE_LENGTH := by
  unfold deriveHierarchyMemberReference at h
  split_ifs at h
  · cases h
  · cases h
    have hmac : ∀ message, (crypto.hmac (memberReferenceKey crypto secret) message).length = 32 :=
      fun message => crypto.length_hmac _ message
    have hlength : ∀ message,
        (base64url (crypto.hmac (memberReferenceKey crypto secret) message)).toList.length =
          43 := by
      intro message
      rw [length_base64url, hmac]
    refine ⟨?_, hlength _⟩
    unfold validateSubject
    rw [isBase64url_of_bytes (List.ne_nil_of_length_pos (by rw [hmac]; decide)), Bool.true_and,
      decide_eq_true_eq, hlength]
    decide

/-- What the service makes of an occasion. -/
structure Reference.Makes (ref : Reference) (actor : ActorContext) (parentRef subject : String)
    (t : Int) : Prop where
  subjectEq : ref.subject crypto secret actor parentRef (snapshotText t) = .ok subject
  referable : Referable ref.kind actor parentRef subject t
  createEq : ref.create crypto secret actor (snapshotText t) =
    .ok (windowToken crypto secret ref.kind actor parentRef subject t)
  parseEq : ∀ row, ref.row = some row →
    ref.parse crypto secret subject = .ok (row.map KeysetRow.pair)

section Makes

variable {crypto secret} {actor : ActorContext} {parentRef : String} {t : Int}

theorem memberNodeRef_eq {membershipId handle : String}
    (hhandle : deriveHierarchyMemberReference crypto secret
      { actor, parentRef, snapshotAt := snapshotText t, membershipId } = .ok handle)
    (h : Referable .member actor parentRef handle t) :
    memberNodeRef crypto secret actor parentRef membershipId (snapshotText t) =
      .ok (windowToken crypto secret .member actor parentRef handle t) := by
  have hsign : signHierarchyReferenceToken crypto secret
      (windowPayload crypto .member actor parentRef handle t) =
        .ok (windowToken crypto secret .member actor parentRef handle t) :=
    signHierarchyReferenceToken_eq crypto secret h.validPayload
  unfold memberNodeRef createHierarchyMemberReferenceToken
  simp only [bind, Except.bind, hhandle, h.buildPayload_eq, hsign, h.parse_eq]

/-- A continuation in the clear. -/
theorem referable_keyset {kind : ReferenceKind} {row : Option KeysetRow}
    (hkind : kind ≠ .member) (hactor : validateActor actor = true)
    (hparent : validateParentRef parentRef = true) (ht : SnapshotAt t)
    (h : ∀ r ∈ row, r.Stored) :
    Referable kind actor parentRef (encodeKeyset (row.map KeysetRow.pair)) t where
  actorValid := hactor
  parentValid := hparent
  subjectValid := validateSubject_encodeKeyset (valid_pair h)
  handle heq := absurd heq hkind
  snapshot := ht

theorem referable_memberKeyset {kind : ReferenceKind} {iv : List UInt8}
    {row : Option KeysetRow} (hkind : kind ≠ .member) (hactor : validateActor actor = true)
    (hparent : validateParentRef parentRef = true) (ht : SnapshotAt t) (hiv : iv.length = 12)
    (h : ∀ r ∈ row, r.Stored) :
    Referable kind actor parentRef
      (encodeMemberKeyset crypto secret iv (row.map KeysetRow.pair)) t where
  actorValid := hactor
  parentValid := hparent
  subjectValid := validateSubject_encodeMemberKeyset crypto secret hiv (valid_pair h)
  handle heq := absurd heq hkind
  snapshot := ht

theorem Reference.makes {ref : Reference} (hstored : ref.Stored)
    (hparentRef : ref.parentRef crypto = .ok parentRef) (hactor : validateActor actor = true)
    (ht : SnapshotAt t) : ∃ subject, ref.Makes crypto secret actor parentRef subject t := by
  have hparent := Reference.validateParentRef_of crypto hstored hparentRef
  have hone : ∀ r : KeysetRow, r.Stored → ∀ r' ∈ some r, r'.Stored := by
    intro r hr r' hr'
    rw [← Option.some.inj hr']
    exact hr
  -- a continuation in the clear, and an encrypted one
  have hplain : ∀ row : Option KeysetRow, (∀ r ∈ row, r.Stored) → ref.kind ≠ .member →
      ref.subject crypto secret actor parentRef (snapshotText t) =
        (keysetAfter row).map encodeKeyset →
      (ref.create crypto secret actor (snapshotText t) = (keysetAfter row).bind fun after =>
        createHierarchyReferenceToken crypto secret ref.kind
          { actor, parentRef, snapshotAt := snapshotText t, subject := encodeKeyset after
            expiresAt := none }) →
      ref.row = some row → (∀ subject, ref.parse crypto secret subject = parseKeyset subject) →
      ∃ subject, ref.Makes crypto secret actor parentRef subject t := by
    intro row hrow hkind hsubject hcreate hrows hparse
    have hreferable := referable_keyset hkind hactor hparent ht hrow
    have htoken : createHierarchyReferenceToken crypto secret ref.kind _ = _ :=
      Referable.create_eq hreferable hkind
    rw [keysetAfter_eq hrow] at hsubject hcreate
    simp only [Except.bind, htoken] at hcreate
    refine ⟨_, hsubject, hreferable, hcreate, ?_⟩
    intro row' hrow'
    rw [hrows] at hrow'
    cases hrow'
    rw [hparse]
    exact parseKeyset_encodeKeyset (valid_pair hrow)
  have hsealed : ∀ (iv : List UInt8) (row : Option KeysetRow), iv.length = 12 →
      (∀ r ∈ row, r.Stored) → ref.kind ≠ .member →
      ref.subject crypto secret actor parentRef (snapshotText t) =
        (keysetAfter row).map (encodeMemberKeyset crypto secret iv) →
      ref.create crypto secret actor (snapshotText t) = ((keysetAfter row).bind fun after =>
        createHierarchyReferenceToken crypto secret ref.kind
          { actor, parentRef, snapshotAt := snapshotText t
            subject := encodeMemberKeyset crypto secret iv after, expiresAt := none }) ∨
      ref.create crypto secret actor (snapshotText t) = ((keysetAfter row).bind fun after =>
        (createHierarchyReferenceToken crypto secret ref.kind
          { actor, parentRef, snapshotAt := snapshotText t
            subject := encodeMemberKeyset crypto secret iv after, expiresAt := none }).bind
          parseOpaqueMemberNodeRef) →
      ref.row = some row →
      (∀ subject, ref.parse crypto secret subject = parseMemberKeyset crypto secret subject) →
      ∃ subject, ref.Makes crypto secret actor parentRef subject t := by
    intro iv row hiv hrow hkind hsubject hcreate hrows hparse
    have hreferable : Referable ref.kind actor parentRef
        (encodeMemberKeyset crypto secret iv (row.map KeysetRow.pair)) t :=
      referable_memberKeyset hkind hactor hparent ht hiv hrow
    have htoken : createHierarchyReferenceToken crypto secret ref.kind _ = _ :=
      Referable.create_eq hreferable hkind
    rw [keysetAfter_eq hrow] at hsubject hcreate
    refine ⟨_, hsubject, hreferable, ?_, ?_⟩
    · rcases hcreate with hcreate | hcreate
      · simp only [Except.bind, htoken] at hcreate
        exact hcreate
      · simp only [Except.bind, htoken, hreferable.parse_eq] at hcreate
        exact hcreate
    · intro row' hrow'
      rw [hrows] at hrow'
      cases hrow'
      rw [hparse]
      exact parseMemberKeyset_encodeMemberKeyset crypto secret hiv (valid_pair hrow)
  have hbound : ∀ f : String → Except HierarchyError String,
      (ref.parentRef crypto).bind f = f parentRef := by
    intro f
    rw [hparentRef]
    rfl
  cases ref with
  | branchCursor p f row =>
      exact hplain (some row) (hone row hstored) nofun rfl (hbound _) rfl fun _ => rfl
  | branchCluster p f row => exact hplain row hstored nofun rfl (hbound _) rfl fun _ => rfl
  | listCursor scope f row =>
      exact hplain (some row) (hone row hstored) nofun rfl (hbound _) rfl fun _ => rfl
  | searchCursor query row =>
      cases hparentRef
      exact hplain (some row) (hone row hstored) nofun rfl rfl rfl fun _ => rfl
  | memberCursor p iv row =>
      exact hsealed iv (some row) hstored.1 (hone row hstored.2) nofun rfl (.inl (hbound _)) rfl
        fun _ => rfl
  | memberSearchCursor root query iv row =>
      cases hparentRef
      exact hsealed iv (some row) hstored.2.1 (hone row hstored.2.2) nofun rfl (.inl rfl) rfl
        fun _ => rfl
  | memberCluster p iv row =>
      exact hsealed iv row hstored.1 hstored.2 nofun rfl (.inr (hbound _)) rfl fun _ => rfl
  | memberNode root membershipId =>
      have hhandle : ∃ handle, deriveHierarchyMemberReference crypto secret
          { actor, parentRef, snapshotAt := snapshotText t, membershipId } = .ok handle := by
        have hdate : canonicalDate (snapshotText t) = some t :=
          canonicalDate_toISOString ht.snapshot
        unfold deriveHierarchyMemberReference
        simp only [hactor, hdate, hparent, hstored.2, Option.isNone_some, Bool.not_true,
          Bool.or_self, Bool.false_eq_true, if_false]
        exact ⟨_, rfl⟩
      obtain ⟨handle, hhandle⟩ := hhandle
      obtain ⟨hsubject, hlength⟩ := memberReference_spec crypto secret hhandle
      have hreferable : Referable .member actor parentRef handle t :=
        ⟨hactor, hparent, hsubject, fun _ => hlength, ht⟩
      cases hparentRef
      exact ⟨handle, hhandle, hreferable, memberNodeRef_eq hhandle hreferable, nofun⟩

end Makes

end

end Refearn.Hierarchy
