import Refearn.Hierarchy.Proofs.Texts
/-!
# Signed payloads

A valid payload is short enough for a token, its token reads back as it, and a token that is
read as authentic is the token of the payload it is read as.
-/

namespace Refearn.Hierarchy

open Support

section

variable (crypto : NodeCrypto) (secret : String)

/-! ## Reading a payload back -/

theorem ReferenceKind.ofText_text (kind : ReferenceKind) :
    ReferenceKind.ofText kind.text = some kind := by
  cases kind <;> rfl

theorem ReferenceKind.plain_text (kind : ReferenceKind) : Plain kind.text := by
  cases kind <;> decide

theorem ReferenceKind.length_text (kind : ReferenceKind) : kind.text.toList.length ≤ 7 := by
  cases kind <;> decide

theorem Payload.toJson_injective : Function.Injective Payload.toJson := by
  intro p q h
  have hkind : ∀ k l : ReferenceKind, k.text = l.text → k = l := by
    intro k l heq
    have hread := k.ofText_text
    rw [heq, l.ofText_text] at hread
    exact (Option.some.inj hread).symm
  unfold Payload.toJson at h
  simp only [Json.obj.injEq, List.cons.injEq, Prod.mk.injEq, Json.str.injEq, true_and,
    and_true] at h
  obtain ⟨hkinds, huser, htenant, hparent, hsnapshot, hsubject, hexpires⟩ := h
  cases p
  cases q
  simp only at hkinds huser htenant hparent hsnapshot hsubject hexpires
  rw [hkind _ _ hkinds, huser, htenant, hparent, hsnapshot, hsubject, hexpires]

/-- The parts of a valid payload. -/
theorem validPayload_iff (p : Payload) :
    validPayload p = true ↔ isUuid p.viewerUserId = true ∧ isUuid p.tenantId = true ∧
      isSha256Hex p.parentFingerprint = true ∧ validateSubject p.subject = true ∧
      (p.kind = .member → p.subject.toList.length = HIERARCHY_SIGNATURE_LENGTH) ∧
      ∃ snapshotMs, canonicalDate p.snapshotAt = some snapshotMs ∧
        withinWindow snapshotMs p.expiresAt = true := by
  unfold validPayload
  cases hdate : canonicalDate p.snapshotAt with
  | none => simp
  | some snapshotMs =>
      simp only [Bool.and_eq_true, Bool.or_eq_true, decide_eq_true_eq, and_assoc,
        Option.some.injEq, exists_eq_left']
      by_cases hkind : p.kind = .member <;> simp [hkind]

theorem withinWindow_iff {snapshotMs : Int} {expiresAt : String} :
    withinWindow snapshotMs expiresAt = true ↔ ∃ expiresMs,
      canonicalDate expiresAt = some expiresMs ∧ snapshotMs < expiresMs ∧
        expiresMs ≤ snapshotMs + HIERARCHY_REFERENCE_TTL_MS := by
  unfold withinWindow
  cases canonicalDate expiresAt <;> simp

theorem shortText_payload {p : Payload} (h : validPayload p = true) :
    ShortText p.toJson 860 := by
  obtain ⟨huser, htenant, hparent, hsubject, -, snapshotMs, hsnapshot, hwindow⟩ :=
    (validPayload_iff p).mp h
  obtain ⟨expiresMs, hexpires, -⟩ := withinWindow_iff.mp hwindow
  have hall := shortText_obj
    (List.cons_ne_nil ("domain", .str HIERARCHY_TOKEN_DOMAIN, 31) [("kind", .str p.kind.text, 9),
      ("viewerUserId", .str p.viewerUserId, 38), ("tenantId", .str p.tenantId, 38),
      ("parentFingerprint", .str p.parentFingerprint, 66), ("snapshotAt", .str p.snapshotAt, 29),
      ("subject", .str p.subject, 514), ("expiresAt", .str p.expiresAt, 29)]) ?_
  · exact ⟨hall.small, hall.length.trans (by simp)⟩
  · have hkind := p.kind.length_text
    have hsubjectLength := length_of_validateSubject hsubject
    have hsnapshotLength := length_of_canonicalDate hsnapshot
    have hexpiresLength := length_of_canonicalDate hexpires
    have huserLength := length_of_isUuid huser
    have htenantLength := length_of_isUuid htenant
    have hparentLength := length_of_isSha256Hex hparent
    have hnames : ∀ name ∈ ["domain", "kind", "viewerUserId", "tenantId", "parentFingerprint",
        "snapshotAt", "subject", "expiresAt"], Plain name := by
      decide
    have hdomain : Plain HIERARCHY_TOKEN_DOMAIN ∧ HIERARCHY_TOKEN_DOMAIN.toList.length = 29 := by
      decide
    intro m hm
    refine ⟨hnames m.1 (List.mem_map_of_mem (f := Prod.fst) hm), ?_⟩
    simp only [List.mem_cons, List.not_mem_nil, or_false] at hm
    rcases hm with rfl | rfl | rfl | rfl | rfl | rfl | rfl | rfl
    · exact shortText_str hdomain.1 (show _ ≤ 31 by omega)
    · exact shortText_str p.kind.plain_text (show _ ≤ 9 by omega)
    · exact shortText_str (plain_of_isUuid huser) (show _ ≤ 38 by omega)
    · exact shortText_str (plain_of_isUuid htenant) (show _ ≤ 38 by omega)
    · exact shortText_str (plain_of_isSha256Hex hparent) (show _ ≤ 66 by omega)
    · exact shortText_str (plain_of_canonicalDate hsnapshot) (show _ ≤ 29 by omega)
    · exact shortText_str (plain_of_validateSubject hsubject) (show _ ≤ 514 by omega)
    · exact shortText_str (plain_of_canonicalDate hexpires) (show _ ≤ 29 by omega)

theorem payloadOf_toJson {p : Payload} (h : validPayload p = true) :
    payloadOf (JsonValue.ofMembers [("domain", .str HIERARCHY_TOKEN_DOMAIN),
      ("kind", .str p.kind.text), ("viewerUserId", .str p.viewerUserId),
      ("tenantId", .str p.tenantId), ("parentFingerprint", .str p.parentFingerprint),
      ("snapshotAt", .str p.snapshotAt), ("subject", .str p.subject),
      ("expiresAt", .str p.expiresAt)]) = some p := by
  generalize hms : JsonValue.ofMembers _ = ms
  have hkeys : sortedKeys ms = payloadKeys := by
    have hnames : ms.map Prod.fst = ["domain", "kind", "viewerUserId", "tenantId",
        "parentFingerprint", "snapshotAt", "subject", "expiresAt"] := by
      rw [← hms]
      rfl
    unfold sortedKeys JsonValue.keys
    rw [hnames]
    decide
  have htext : ∀ name, textMember ms name =
      if "expiresAt" = name then some p.expiresAt else if "subject" = name then some p.subject
      else if "snapshotAt" = name then some p.snapshotAt
      else if "parentFingerprint" = name then some p.parentFingerprint
      else if "tenantId" = name then some p.tenantId
      else if "viewerUserId" = name then some p.viewerUserId
      else if "kind" = name then some p.kind.text
      else if "domain" = name then some HIERARCHY_TOKEN_DOMAIN else none := by
    intro name
    rw [← hms]
    unfold textMember JsonValue.member
    simp only [JsonValue.ofMembers, JsonValue.ofJson, List.reverse_cons, List.reverse_nil,
      List.nil_append, List.cons_append, List.find?_cons, List.find?_nil]
    split_ifs <;> simp_all
  unfold payloadOf
  simp only [htext, String.reduceEq, if_true, if_false, Option.bind_eq_bind, Option.bind_some,
    ReferenceKind.ofText_text]
  exact if_pos ⟨hkeys, trivial, h⟩

theorem readPayload_stringify {p : Payload} (h : validPayload p = true) :
    readPayload (Json.stringify p.toJson) = some p := by
  have hread : JsonValue.parse (Json.stringify p.toJson) = some (JsonValue.ofJson p.toJson) :=
    JsonValue.parse_stringify _
  unfold readPayload
  rw [hread]
  unfold Payload.toJson
  simp only [JsonValue.ofJson]
  rw [payloadOf_toJson h, Option.filter_some, if_pos (decide_eq_true rfl)]

/-! ## Tokens -/

theorem toList_tokenOf (encodedPayload : String) :
    (tokenOf crypto secret encodedPayload).toList = encodedPayload.toList ++
      '.' :: Base64Url.encode (hierarchySignature crypto secret encodedPayload) := by
  unfold tokenOf
  rw [String.toList_append, String.toList_append, toList_base64url, List.append_assoc]
  rfl

theorem length_hierarchySignature (encodedPayload : String) :
    (hierarchySignature crypto secret encodedPayload).length = 32 :=
  crypto.length_hmac _ _

theorem length_encodedSignature (encodedPayload : String) :
    (Base64Url.encode (hierarchySignature crypto secret encodedPayload)).length =
      HIERARCHY_SIGNATURE_LENGTH := by
  rw [Base64Url.length_encode, length_hierarchySignature]
  rfl

theorem isBase64url_signature (encodedPayload : String) :
    isBase64url (Base64Url.encode (hierarchySignature crypto secret encodedPayload)) = true := by
  rw [← toList_base64url]
  refine isBase64url_of_bytes fun hnil => ?_
  have hlength := length_hierarchySignature crypto secret encodedPayload
  rw [hnil] at hlength
  cases hlength

theorem encodePayload_bytes_ne {p : Payload} (h : validPayload p = true) :
    bytesOf (Json.stringify p.toJson) ≠ [] :=
  bytesOf_ne_nil (shortText_payload h).sevenBit (stringify_ne_nil _)

/-- The halves of a token. -/
theorem splitOn_tokenOf (bytes : List UInt8) :
    (tokenOf crypto secret (base64url bytes)).toList.splitOn '.' =
      [(base64url bytes).toList,
        Base64Url.encode (hierarchySignature crypto secret (base64url bytes))] := by
  have hsignature := dot_notMem_base64url (hierarchySignature crypto secret (base64url bytes))
  rw [toList_base64url] at hsignature
  rw [toList_tokenOf,
    List.splitOn_append_cons_self_of_not_mem (dot_notMem_base64url bytes),
    List.splitOn_eq_singleton hsignature]

theorem splitToken_tokenOf {bytes : List UInt8} (h : bytes ≠ []) :
    splitToken (tokenOf crypto secret (base64url bytes)) =
      some ((base64url bytes).toList,
        Base64Url.encode (hierarchySignature crypto secret (base64url bytes))) := by
  unfold splitToken
  rw [splitOn_tokenOf]
  simp only [isBase64url_of_bytes h, isBase64url_signature, length_encodedSignature,
    decide_true, Bool.and_self, if_true]

/-- Even with the longest subject a token keeps within its bound. -/
theorem length_tokenOf {p : Payload} (h : validPayload p = true) :
    (tokenOf crypto secret (encodePayload p)).toList.length ≤ HIERARCHY_TOKEN_MAX_LENGTH := by
  have hshort := shortText_payload h
  have hpayload : (encodePayload p).toList.length ≤ 1147 := by
    have hlength := hshort.length_stringify
    unfold encodePayload
    rw [length_base64url, length_bytesOf hshort.sevenBit]
    omega
  rw [toList_tokenOf, List.length_append, List.length_cons, length_encodedSignature]
  unfold HIERARCHY_SIGNATURE_LENGTH HIERARCHY_TOKEN_MAX_LENGTH
  omega

theorem signHierarchyReferenceToken_eq {p : Payload} (h : validPayload p = true) :
    signHierarchyReferenceToken crypto secret p =
      .ok (tokenOf crypto secret (encodePayload p)) := by
  have hlength := length_tokenOf crypto secret h
  unfold signHierarchyReferenceToken
  exact if_neg (not_lt.mpr hlength)

theorem authenticPayload_tokenOf {p : Payload} (h : validPayload p = true) :
    authenticPayload crypto secret (tokenOf crypto secret (encodePayload p)) = some p := by
  have hbytes := encodePayload_bytes_ne h
  have hdecoded := decode_bytesOf (Json.stringify p.toJson)
  unfold authenticPayload encodePayload
  rw [splitToken_tokenOf crypto secret hbytes]
  simp only [decode_base64url, Base64Url.decode_encode, String.ofList_toList]
  rw [if_pos ⟨(toList_base64url _).symm, trivial, trivial⟩, hdecoded, readPayload_stringify h]

/-! ## What an authentic token is -/

theorem splitToken_eq_some {token : String} {encoded signature : List Char}
    (h : splitToken token = some (encoded, signature)) :
    token.toList = encoded ++ '.' :: signature := by
  have hjoin : ['.'].intercalate (token.toList.splitOn '.') = token.toList :=
    List.intercalate_splitOn '.'
  unfold splitToken at h
  split at h
  · next heq =>
      split_ifs at h
      cases h
      rw [heq, List.intercalate_cons_cons, List.intercalate_singleton, List.append_assoc] at hjoin
      exact hjoin.symm
  · cases h

/-- An authentic token carries the signature of its first half, and that is written as the
bytes of its payload's text are. -/
theorem authenticPayload_eq_some {token : String} {p : Payload}
    (h : authenticPayload crypto secret token = some p) :
    ∃ encoded, token = tokenOf crypto secret encoded ∧
      Base64Url.encode (Base64Url.decode encoded.toList) = encoded.toList ∧
      Json.stringify p.toJson =
        String.ofList (Utf8.decode (Base64Url.decode encoded.toList)) ∧
      validPayload p = true := by
  unfold authenticPayload at h
  cases hsplit : splitToken token with
  | none =>
      rw [hsplit] at h
      cases h
  | some halves =>
      obtain ⟨encoded, signature⟩ := halves
      rw [hsplit] at h
      simp only at h
      split_ifs at h with hvalid
      obtain ⟨hencoded, hsignature, hmac⟩ := hvalid
      have htoken := splitToken_eq_some hsplit
      refine ⟨String.ofList encoded, ?_, ?_, ?_⟩
      · apply String.toList_inj.mp
        rw [toList_tokenOf, ← hmac, hsignature, String.toList_ofList, htoken]
      · rw [String.toList_ofList, hencoded]
      · rw [String.toList_ofList]
        unfold readPayload at h
        split at h
        · next members _ =>
            obtain ⟨hpayload, htext⟩ := Option.filter_eq_some_iff.mp h
            refine ⟨of_decide_eq_true htext, ?_⟩
            unfold payloadOf at hpayload
            simp only [Option.bind_eq_bind, Option.bind_eq_some_iff] at hpayload
            obtain ⟨_, -, _, -, _, -, _, -, _, -, _, -, _, -, _, -, hif⟩ := hpayload
            split_ifs at hif with hall
            cases hif
            exact hall.2.2
        · cases h

end

end Refearn.Hierarchy
