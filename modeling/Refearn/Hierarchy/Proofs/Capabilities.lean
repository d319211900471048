import Refearn.Hierarchy.Proofs.References
/-!
# What is verified was made by the service

The service signs the payloads of the references it makes and nothing else under that key.
If no other signatures can be presented, an accepted token is one that it made, for what
it was made for.
-/

namespace Refearn.Hierarchy

open Support

section

variable (crypto : NodeCrypto) (secret : String)

/-- The service made a token of a kind under a binding. -/
inductive Created : ReferenceKind → ReferenceBinding → String → Prop
  | reference (kind : ReferenceKind) (input : CreateReferenceInput) (token : String) :
      createHierarchyReferenceToken crypto secret kind input = .ok token →
      Created kind input.toReferenceBinding token
  | member (input : MemberReferenceInput) (expiresAt : Option String) (token : String) :
      createHierarchyMemberReferenceToken crypto secret input expiresAt = .ok token →
      Created .member input.toReferenceBinding token

/-- A token that the service made. -/
structure Issued where
  kind : ReferenceKind
  binding : ReferenceBinding
  token : String
  created : Created crypto secret kind binding token

variable {crypto secret}

/-- What the signature of the token is over. -/
def Issued.message (issued : Issued crypto secret) : List Char :=
  issued.token.toList.takeWhile (· ≠ '.')

/-- HMAC is unforgeable: a message is presented with its signature only if the service has
signed it. -/
def Unforgeable (issued : List (Issued crypto secret)) (token : String) : Prop :=
  ∀ (message : List Char) (signature : List UInt8),
    token.toList = message ++ '.' :: Base64Url.encode signature →
    signature = hierarchySignature crypto secret (String.ofList message) →
    message ∈ issued.map Issued.message

/-- No parent that a token was made under has the digest of another one. -/
def CollisionFree (issued : List (Issued crypto secret)) (parentRef : String) : Prop :=
  ∀ i ∈ issued, sha256 crypto i.binding.parentRef = sha256 crypto parentRef →
    i.binding.parentRef = parentRef

/-! ## The payloads of issued tokens -/

/-- The payload holds what the token was made for. -/
structure Binds (crypto : NodeCrypto) (kind : ReferenceKind) (binding : ReferenceBinding) (p : Payload) : Prop where
  kind : p.kind = kind
  viewer : p.viewerUserId = binding.actor.userId
  tenant : p.tenantId = binding.actor.tenantId
  parent : p.parentFingerprint = sha256 crypto binding.parentRef
  snapshot : p.snapshotAt = binding.snapshotAt

theorem expiresAtFor_spec {snapshotAt expiry : String} {expiresAt : Option String}
    (h : expiresAtFor snapshotAt expiresAt = .ok expiry) :
    ∃ t, canonicalDate snapshotAt = some t ∧ withinWindow t expiry = true := by
  unfold expiresAtFor at h
  cases hdate : canonicalDate snapshotAt with
  | none =>
      rw [hdate] at h
      cases h
  | some t =>
      rw [hdate] at h
      refine ⟨t, rfl, ?_⟩
      cases expiresAt with
      | some e =>
          simp only [bind, Except.bind] at h
          split_ifs at h with hwindow
          · cases h
            exact hwindow
          · cases h
      | none =>
          simp only [bind, Except.bind] at h
          cases htext : toISOString (t + HIERARCHY_REFERENCE_TTL_MS) with
          | error e =>
              rw [htext] at h
              cases h
          | ok e =>
              simp only [htext] at h
              split_ifs at h with hwindow
              · cases h
                exact hwindow
              · cases h

theorem buildPayload_spec {kind : ReferenceKind} {input : CreateReferenceInput} {p : Payload}
    (h : buildPayload crypto kind input = .ok p)
    (hhandle : kind = .member → input.subject.toList.length = HIERARCHY_SIGNATURE_LENGTH) :
    Binds crypto kind input.toReferenceBinding p ∧ validPayload p = true := by
  unfold buildPayload at h
  split_ifs at h with hrefused
  · cases h
  · simp only [Bool.or_eq_true, Bool.not_eq_true', not_or, Bool.not_eq_false] at hrefused
    obtain ⟨⟨⟨hactor, -⟩, hsubject⟩, -⟩ := hrefused
    cases hexpiry : expiresAtFor input.snapshotAt input.expiresAt with
    | error e =>
        rw [hexpiry] at h
        cases h
    | ok expiry =>
        rw [hexpiry] at h
        cases h
        obtain ⟨t, hdate, hwindow⟩ := expiresAtFor_spec hexpiry
        unfold validateActor at hactor
        rw [Bool.and_eq_true] at hactor
        exact ⟨⟨rfl, rfl, rfl, rfl, rfl⟩, (validPayload_iff _).mpr ⟨hactor.1, hactor.2,
          isSha256Hex_sha256 crypto _, hsubject, hhandle, t, hdate, hwindow⟩⟩

theorem signHierarchyReferenceToken_spec {p : Payload} {token : String}
    (h : signHierarchyReferenceToken crypto secret p = .ok token) :
    token = tokenOf crypto secret (encodePayload p) := by
  unfold signHierarchyReferenceToken at h
  simp only at h
  split_ifs at h
  · cases h
  · exact (Except.ok.inj h).symm

theorem bind_eq_ok {α β : Type} {x : Except HierarchyError α} {f : α → Except HierarchyError β}
    {b : β} (h : x.bind f = .ok b) : ∃ a, x = .ok a ∧ f a = .ok b := by
  cases x with
  | error e => cases h
  | ok a => exact ⟨a, rfl, h⟩

theorem Created.payload {kind : ReferenceKind} {binding : ReferenceBinding} {token : String}
    (h : Created crypto secret kind binding token) :
    ∃ p, token = tokenOf crypto secret (encodePayload p) ∧
      Binds crypto kind binding p ∧ validPayload p = true := by
  cases h with
  | reference _ input _ hcreate =>
      unfold createHierarchyReferenceToken at hcreate
      split_ifs at hcreate with hkind
      · cases hcreate
      · obtain ⟨p, hbuild, hsign⟩ := bind_eq_ok hcreate
        exact ⟨p, signHierarchyReferenceToken_spec hsign,
          buildPayload_spec hbuild fun heq => absurd heq hkind⟩
  | member input expiresAt _ hcreate =>
      unfold createHierarchyMemberReferenceToken at hcreate
      obtain ⟨handle, hhandle, hcreate⟩ := bind_eq_ok hcreate
      obtain ⟨p, hbuild, hcreate⟩ := bind_eq_ok hcreate
      obtain ⟨signed, hsign, hparse⟩ := bind_eq_ok hcreate
      have htoken : signed = token := by
        unfold parseOpaqueMemberNodeRef at hparse
        split_ifs at hparse
        exact Except.ok.inj hparse
      obtain ⟨hbinds, hvalid⟩ := buildPayload_spec hbuild
        fun _ => (memberReference_spec crypto secret hhandle).2
      exact ⟨p, htoken ▸ signHierarchyReferenceToken_spec hsign, hbinds, hvalid⟩

theorem takeWhile_tokenOf (bytes : List UInt8) :
    (tokenOf crypto secret (base64url bytes)).toList.takeWhile (· ≠ '.') =
      (base64url bytes).toList := by
  have hletters : ∀ c ∈ (base64url bytes).toList, decide (c ≠ '.') = true := by
    intro c hc
    exact decide_eq_true (Base64Url.isLetter_bounds (isLetter_base64url hc)).2.2
  rw [toList_tokenOf, List.takeWhile_append_of_pos hletters,
    List.takeWhile_cons_of_neg (by decide), List.append_nil]

theorem Issued.message_eq {issued : Issued crypto secret} {p : Payload}
    (h : issued.token = tokenOf crypto secret (encodePayload p)) :
    issued.message = (encodePayload p).toList := by
  unfold Issued.message
  rw [h]
  exact takeWhile_tokenOf _

/-! ## Accepted tokens -/

theorem verify_spec {token : String} {binding : VerifyReferenceBinding} {now : Int}
    {p : Payload} (h : verifyHierarchyReferenceToken crypto secret token binding now = .ok p) :
    authenticPayload crypto secret token = some p ∧ bindsTo crypto binding p = true ∧
      ∃ expiresMs, canonicalDate p.expiresAt = some expiresMs ∧ now < expiresMs := by
  unfold verifyHierarchyReferenceToken at h
  split_ifs at h
  · cases h
  · cases hauthentic : authenticPayload crypto secret token with
    | none =>
        rw [hauthentic] at h
        cases h
    | some q =>
        rw [hauthentic] at h
        simp only at h
        split_ifs at h with hbinds
        · cases h
        · cases hexpiry : canonicalDate q.expiresAt with
          | none =>
              rw [hexpiry] at h
              cases h
          | some expiresMs =>
              rw [hexpiry] at h
              simp only at h
              split_ifs at h with hnow
              cases h
              rw [Bool.not_eq_true', Bool.not_eq_false] at hbinds
              exact ⟨rfl, hbinds, expiresMs, hexpiry, not_le.mp hnow⟩

theorem bindsTo_iff (binding : VerifyReferenceBinding) (p : Payload) :
    bindsTo crypto binding p = true ↔
      Binds crypto binding.kind binding.toReferenceBinding p := by
  unfold bindsTo
  simp only [Bool.and_eq_true, decide_eq_true_eq, and_assoc]
  constructor
  · rintro ⟨hkind, hviewer, htenant, hparent, hsnapshot⟩
    exact ⟨hkind, hviewer, htenant, hparent, hsnapshot⟩
  · intro h
    exact ⟨h.kind, h.viewer, h.tenant, h.parent, h.snapshot⟩

/-- A payload that is read from the text of another one is that one. -/
theorem payload_eq_of_stringify {p q : Payload}
    (h : Json.stringify p.toJson = String.ofList (Utf8.decode
      (Base64Url.decode (encodePayload q).toList))) : p = q := by
  unfold encodePayload at h
  rw [decode_base64url, decode_bytesOf] at h
  exact Payload.toJson_injective (Json.stringify_injective h)

/-- An accepted token is one that was issued for the same. -/
theorem issued_of_verify {issued : List (Issued crypto secret)} {token : String}
    {binding : VerifyReferenceBinding} {now : Int} {p : Payload}
    (hunforgeable : Unforgeable issued token)
    (hcollision : CollisionFree issued binding.parentRef)
    (h : verifyHierarchyReferenceToken crypto secret token binding now = .ok p) :
    ∃ i ∈ issued, i.token = token ∧ i.kind = binding.kind ∧
      i.binding = binding.toReferenceBinding ∧
      ∃ expiresMs, canonicalDate p.expiresAt = some expiresMs ∧ now < expiresMs := by
  obtain ⟨hauthentic, hbinds, hexpiry⟩ := verify_spec h
  obtain ⟨encoded, htoken, hcanonical, htext, -⟩ :=
    authenticPayload_eq_some crypto secret hauthentic
  have hsigned : encoded.toList ∈ issued.map Issued.message := by
    apply hunforgeable encoded.toList (hierarchySignature crypto secret encoded)
    · rw [htoken, toList_tokenOf]
    · rw [String.ofList_toList]
  obtain ⟨i, hi, hmessage⟩ := List.mem_map.mp hsigned
  obtain ⟨q, hitoken, hibinds, hvalid⟩ := i.created.payload
  have hencoded : encodePayload q = encoded := by
    rw [Issued.message_eq hitoken] at hmessage
    exact String.toList_inj.mp hmessage
  have hpq : p = q := by
    apply payload_eq_of_stringify
    rw [hencoded]
    exact htext
  have hpbinds := (bindsTo_iff binding p).mp hbinds
  subst hpq
  have hparent : i.binding.parentRef = binding.parentRef :=
    hcollision i hi (hibinds.parent.symm.trans hpbinds.parent)
  have huser : i.binding.actor.userId = binding.actor.userId :=
    hibinds.viewer.symm.trans hpbinds.viewer
  have htenant : i.binding.actor.tenantId = binding.actor.tenantId :=
    hibinds.tenant.symm.trans hpbinds.tenant
  have hsnapshot : i.binding.snapshotAt = binding.snapshotAt :=
    hibinds.snapshot.symm.trans hpbinds.snapshot
  refine ⟨i, hi, ?_, hibinds.kind.symm.trans hpbinds.kind, ?_, hexpiry⟩
  · rw [hitoken, hencoded, htoken]
  · cases hb : i.binding with
    | mk actor parentRef snapshotAt =>
        rw [hb] at hparent huser htenant hsnapshot
        cases actor
        simp only at hparent huser htenant hsnapshot
        rw [huser, htenant, hparent, hsnapshot]

/-! ## The references of the service are issued -/

theorem Reference.created {ref : Reference} {actor : ActorContext}
    {parentRef snapshotAt token : String} (hparentRef : ref.parentRef crypto = .ok parentRef)
    (h : ref.create crypto secret actor snapshotAt = .ok token) :
    Created crypto secret ref.kind { actor, parentRef, snapshotAt } token := by
  have hbound : ∀ f : String → Except HierarchyError String,
      (ref.parentRef crypto).bind f = f parentRef := by
    intro f
    rw [hparentRef]
    rfl
  -- what a continuation is made by, once its keyset is there
  have hcontinuation : ∀ (kind : ReferenceKind) (row : Option KeysetRow)
      (encode : Option Keyset → String),
      ((keysetAfter row).bind fun after => createHierarchyReferenceToken crypto secret kind
        { actor, parentRef, snapshotAt, subject := encode after, expiresAt := none }) =
          .ok token → Created crypto secret kind { actor, parentRef, snapshotAt } token := by
    intro kind row encode hcreate
    obtain ⟨after, -, hcreate⟩ := bind_eq_ok hcreate
    exact Created.reference kind _ token hcreate
  unfold Reference.create at h
  change (ref.parentRef crypto).bind _ = _ at h
  rw [hbound] at h
  cases ref with
  | branchCursor p f row => exact hcontinuation .cursor (some row) encodeKeyset h
  | branchCluster p f row => exact hcontinuation .cluster row encodeKeyset h
  | listCursor scope f row => exact hcontinuation .cursor (some row) encodeKeyset h
  | searchCursor query row => exact hcontinuation .cursor (some row) encodeKeyset h
  | memberNode root membershipId => exact Created.member _ none token h
  | memberCursor p iv row =>
      exact hcontinuation .cursor (some row) (encodeMemberKeyset crypto secret iv) h
  | memberSearchCursor root query iv row =>
      exact hcontinuation .cursor (some row) (encodeMemberKeyset crypto secret iv) h
  | memberCluster p iv row =>
      obtain ⟨after, hafter, hcreate⟩ := bind_eq_ok h
      obtain ⟨made, hmade, hparse⟩ := bind_eq_ok hcreate
      have htoken : made = token := by
        unfold parseOpaqueMemberNodeRef at hparse
        split_ifs at hparse
        exact Except.ok.inj hparse
      exact Created.reference .cluster _ token (htoken ▸ hmade)

/-- Nobody who presents an issued token has forged it. -/
theorem unforgeable_of_mem {issued : List (Issued crypto secret)} {i : Issued crypto secret}
    (hi : i ∈ issued) : Unforgeable issued i.token := by
  intro message signature htoken _
  obtain ⟨p, hp, -⟩ := i.created.payload
  have hmessage : message = i.message := by
    have hdot := dot_notMem_base64url signature
    rw [toList_base64url] at hdot
    have hsplit := splitOn_tokenOf crypto secret (bytesOf (Json.stringify p.toJson))
    change (tokenOf crypto secret (encodePayload p)).toList.splitOn '.' = _ at hsplit
    rw [← hp, htoken, List.splitOn_append_cons_self, List.splitOn_eq_singleton hdot] at hsplit
    have hparts : message.splitOn '.' ++ [Base64Url.encode signature] =
        [(base64url (bytesOf (Json.stringify p.toJson))).toList] ++
          [Base64Url.encode (hierarchySignature crypto secret (encodePayload p))] := hsplit
    have hhead := (List.append_inj' hparts rfl).1
    have hjoin : ['.'].intercalate (message.splitOn '.') = message :=
      List.intercalate_splitOn '.'
    rw [hhead, List.intercalate_singleton] at hjoin
    rw [Issued.message_eq hp, ← hjoin]
    rfl
  rw [hmessage]
  exact List.mem_map_of_mem hi

/-! ## Exact capabilities -/

/-- Every reference that the service makes is verified until it expires, where it was made
for, with the subject it was made of, and its keyset is parsed as the pair that was encoded;
and whatever is verified the service has made, for the same kind, actor, tenant, parent and
snapshot, and it has not expired. -/
theorem references_exact (crypto : NodeCrypto) (secret : String) :
    (∀ (ref : Reference) (actor : ActorContext) (parentRef : String) (t : Int),
      ref.Stored → ref.parentRef crypto = .ok parentRef → validateActor actor = true →
      SnapshotAt t → ∃ token subject,
        ref.create crypto secret actor (snapshotText t) = .ok token ∧
        ref.subject crypto secret actor parentRef (snapshotText t) = .ok subject ∧
        (∀ now < t + HIERARCHY_REFERENCE_TTL_MS, ∃ payload,
          verifyHierarchyReferenceToken crypto secret token
            { actor, parentRef, snapshotAt := snapshotText t, kind := ref.kind } now =
              .ok payload ∧ payload.subject = subject) ∧
        ∀ row, ref.row = some row →
          ref.parse crypto secret subject = .ok (row.map KeysetRow.pair)) ∧
    (∀ (issued : List (Issued crypto secret)) (token : String)
      (binding : VerifyReferenceBinding) (now : Int) (payload : Payload),
      Unforgeable issued token → CollisionFree issued binding.parentRef →
      verifyHierarchyReferenceToken crypto secret token binding now = .ok payload →
      ∃ i ∈ issued, i.token = token ∧ i.kind = binding.kind ∧
        i.binding = binding.toReferenceBinding ∧
        ∃ expiresMs, canonicalDate payload.expiresAt = some expiresMs ∧ now < expiresMs) := by
  constructor
  · intro ref actor parentRef t hstored hparentRef hactor ht
    obtain ⟨subject, hmakes⟩ :=
      Reference.makes hstored hparentRef hactor ht
    refine ⟨_, subject, hmakes.createEq, hmakes.subjectEq, ?_, hmakes.parseEq⟩
    intro now hnow
    exact ⟨_, hmakes.referable.verify_eq hnow, rfl⟩
  · intro issued token binding now payload hunforgeable hcollision h
    exact issued_of_verify hunforgeable hcollision h

end

namespace Demo

def secret : String := "network-hierarchy-secret-0123456789"

def viewer : ActorContext where
  userId := "0f8fad5b-d9cb-469f-a165-70867728950e"
  tenantId := "7c9e6679-7425-40de-944b-e07fc1f90ae7"

def root : String := "5b1e0c52-7f0a-4c3e-9b61-0d2f4a6c8e10"

def row : KeysetRow := ⟨1772353800000, "550e8400-e29b-41d4-a716-446655440000"⟩

def noon : Int := 1784116800000

def iv : List UInt8 := [1, 2, 3, 4, 5, 6, 7, 8, 9, 10, 11, 12]

/-- A continuation of the direct recruits whose names hold a text. -/
def search : Reference := .memberSearchCursor root "ayla" iv row

def queryDigest : List UInt8 :=
  [20, 181, 224, 133, 105, 99, 52, 96, 173, 85, 98, 93, 142, 202, 67, 252, 63, 190, 238, 17, 208,
    251, 189, 69, 251, 218, 20, 39, 43, 165, 194, 215]

def secretDigest : List UInt8 :=
  [53, 207, 212, 167, 70, 129, 75, 206, 72, 25, 49, 94, 99, 14, 49, 46, 111, 53, 121, 71, 153, 95,
    144, 11, 195, 230, 56, 143, 160, 2, 173, 207]

def bindingDigest : List UInt8 :=
  [54, 169, 12, 215, 170, 19, 125, 154, 207, 215, 147, 96, 72, 254, 49, 156, 160, 60, 67, 162, 226,
    19, 243, 51, 121, 4, 172, 210, 106, 151, 111, 125]

def signatureKey : List UInt8 :=
  [154, 4, 39, 141, 248, 193, 130, 52, 146, 243, 10, 183, 111, 214, 234, 124, 220, 33, 163, 141,
    152, 60, 147, 157, 76, 196, 14, 194, 61, 13, 13, 173]

def signature : List UInt8 :=
  [162, 138, 217, 35, 174, 136, 13, 242, 75, 91, 252, 212, 48, 20, 134, 207, 43, 232, 58, 25, 241,
    103, 151, 51, 242, 38, 89, 22, 234, 69, 133, 209]

def ciphertext : List UInt8 :=
  [59, 222, 182, 33, 158, 64, 144, 149, 13, 39, 53, 128, 234, 161, 179, 139, 100, 123, 203, 252,
    177, 49, 188, 82, 50, 239, 222, 185, 89, 81, 108, 211, 112, 128, 224, 13, 242, 154, 249, 41,
    37, 173, 29, 206, 137, 236, 31, 66, 64, 170, 53, 68, 185, 15, 210, 87, 112, 133, 42, 150, 109,
    40, 203, 179, 133, 96, 177, 250, 8, 121, 244, 33, 207, 239, 22, 7, 122, 183, 249, 36, 157, 254,
    47, 226, 135, 82, 109, 48, 17]

def tag : List UInt8 := [230, 167, 5, 53, 203, 2, 96, 22, 238, 213, 5, 111, 14, 14, 220, 203]

def plain : List UInt8 := bytesOf (Json.stringify (keysetJson (some row.pair)))

/-- The digests and the ciphertext that the reference above is made with; the other values
are arbitrary. -/
def crypto : NodeCrypto where
  hash message :=
    if message = bytesOf "ayla" then queryDigest
    else if message = bytesOf secret then secretDigest else bindingDigest
  hmac key _ := if key = signatureKey then signature else signatureKey
  encrypt key iv' text :=
    if key = secretDigest ∧ iv' = iv ∧ text = plain then (ciphertext, tag)
    else (text, .replicate 16 0)
  decrypt _ _ tag' text :=
    if tag' = tag then some plain else some text
  length_hash message := by split_ifs <;> rfl
  length_hmac key message := by split_ifs <;> rfl
  length_encrypt key iv' text := by
    have hlength : ciphertext.length = plain.length := by decide
    split_ifs with h
    · rw [h.2.2]
      exact ⟨hlength, rfl⟩
    · exact ⟨rfl, List.length_replicate⟩
  decrypt_encrypt key iv' text := by
    by_cases h : key = secretDigest ∧ iv' = iv ∧ text = plain
    · simp only [if_pos h]
      rw [if_pos trivial, h.2.2]
    · simp only [if_neg h]
      exact if_neg (by decide)

theorem search_stored : search.Stored := by
  refine ⟨by decide, by decide, ?_, by decide⟩
  exact (by decide : IsoDate.Representable row.joinedAt)

theorem noon_snapshot : SnapshotAt noon :=
  ⟨(by decide : IsoDate.Representable noon),
    (by decide : IsoDate.Representable (noon + HIERARCHY_REFERENCE_TTL_MS))⟩

end Demo

theorem references_exact_search :
    ∃ token subject parentRef, Demo.search.parentRef Demo.crypto = .ok parentRef ∧
      Demo.search.create Demo.crypto Demo.secret Demo.viewer (snapshotText Demo.noon) =
        .ok token ∧
      Demo.search.parse Demo.crypto Demo.secret subject = .ok (some Demo.row.pair) ∧
      ∃ i : Issued Demo.crypto Demo.secret, i.token = token ∧ i.kind = .cursor ∧
        i.binding = ⟨Demo.viewer, parentRef, snapshotText Demo.noon⟩ := by
  have hactor : validateActor Demo.viewer = true := by decide
  obtain ⟨token, subject, hcreate, -, hverify, hparse⟩ :=
    (references_exact Demo.crypto Demo.secret).1 Demo.search Demo.viewer _ Demo.noon
      Demo.search_stored rfl hactor Demo.noon_snapshot
  obtain ⟨payload, hpayload, -⟩ := hverify Demo.noon (by decide)
  let made : Issued Demo.crypto Demo.secret :=
    ⟨.cursor, _, token, Reference.created rfl hcreate⟩
  obtain ⟨i, -, htoken, hkind, hbinding, -⟩ :=
    (references_exact Demo.crypto Demo.secret).2 [made] token _ Demo.noon payload
      (unforgeable_of_mem (i := made) List.mem_cons_self)
      (fun i hi _ => by rw [List.mem_singleton.mp hi]) hpayload
  exact ⟨token, subject, _, rfl, hcreate, hparse _ rfl, i, htoken, hkind, hbinding⟩

end Refearn.Hierarchy
