import Refearn.Hierarchy.Proofs.Texts
/-!
# Keysets read back

A keyset fits in the subject of a reference, encrypted or not, and is parsed as what was
encoded.
-/

namespace Refearn.Hierarchy

open Support

/-- A keyset with a canonical date and an identifier. -/
def Keyset.Valid (k : Keyset) : Prop := (canonicalDate k.joinedAt).isSome ∧ isUuid k.id = true

theorem shortText_keyset {after : Option Keyset} (h : ∀ k ∈ after, k.Valid) :
    ShortText (keysetJson after) 92 := by
  have hversion : Plain "v" ∧ ShortText (.num 1) 1 := by
    refine ⟨by decide, ?_, ?_⟩
    · intro c hc
      have hdigit : c ∈ ['1'] := hc
      rw [List.mem_singleton.mp hdigit]
      decide
    · exact le_rfl
  cases after with
  | none =>
      have hall := shortText_obj (List.cons_ne_nil ("v", .num 1, 1) []) (by
        intro m hm
        rw [List.mem_singleton.mp hm]
        exact hversion)
      exact ⟨hall.small, hall.length.trans (by simp)⟩
  | some k =>
      obtain ⟨hdate, hid⟩ := h k rfl
      obtain ⟨t, ht⟩ := Option.isSome_iff_exists.mp hdate
      have hdateLength := length_of_canonicalDate ht
      have hidLength := length_of_isUuid hid
      have hnames : Plain "joinedAt" ∧ Plain "id" := by decide
      have hall := shortText_obj
        (List.cons_ne_nil ("v", .num 1, 1) [("joinedAt", .str k.joinedAt, 29), ("id", .str k.id, 38)])
        (by
          intro m hm
          simp only [List.mem_cons, List.not_mem_nil, or_false] at hm
          rcases hm with rfl | rfl | rfl
          · exact hversion
          · exact ⟨hnames.1, shortText_str (plain_of_canonicalDate ht) (show _ ≤ 29 by omega)⟩
          · exact ⟨hnames.2, shortText_str (plain_of_isUuid hid) (show _ ≤ 38 by omega)⟩)
      exact ⟨hall.small, hall.length.trans (by simp)⟩

theorem readKeyset_stringify {after : Option Keyset} (h : ∀ k ∈ after, k.Valid) :
    readKeyset (Json.stringify (keysetJson after)) = .ok after := by
  have hone : (JsonValue.num 1 0).isOne = true := by decide +kernel
  unfold readKeyset
  rw [JsonValue.parse_stringify]
  cases after with
  | none =>
      unfold keysetJson
      simp only [JsonValue.ofJson, JsonValue.ofMembers]
      unfold keysetOf
      have hmember : JsonValue.member [("v", JsonValue.num 1 0)] "v" =
          some (JsonValue.num 1 0) := rfl
      have hkeys : (JsonValue.keys [("v", JsonValue.num 1 0)]).length = 1 := by decide
      rw [hmember, Option.any_some, hone, if_neg (by decide), if_pos hkeys]
  | some k =>
      obtain ⟨hdate, hid⟩ := h k rfl
      unfold keysetJson
      simp only [JsonValue.ofJson, JsonValue.ofMembers]
      generalize hms : [("v", JsonValue.num 1 0), ("joinedAt", JsonValue.str k.joinedAt),
        ("id", JsonValue.str k.id)] = ms
      have hnames : ms.map Prod.fst = ["v", "joinedAt", "id"] := by
        rw [← hms]
        rfl
      have hkeys : (JsonValue.keys ms).length ≠ 1 ∧
          String.intercalate "," (sortedKeys ms) = "id,joinedAt,v" := by
        unfold sortedKeys JsonValue.keys
        rw [hnames]
        decide
      have hmember : JsonValue.member ms "v" = some (.num 1 0) ∧
          textMember ms "joinedAt" = some k.joinedAt ∧ textMember ms "id" = some k.id := by
        rw [← hms]
        refine ⟨rfl, rfl, rfl⟩
      unfold keysetOf
      rw [hmember.1, Option.any_some, hone, if_neg (by decide), if_neg hkeys.1, hmember.2.1,
        hmember.2.2]
      exact if_pos ⟨hkeys.2, hdate, hid⟩

theorem decodeCanonical_base64url (text : String) :
    decodeCanonical (base64url (bytesOf text)) = some text := by
  unfold decodeCanonical
  simp only [decode_base64url, if_true]
  rw [decode_bytesOf]

/-- The letters of a short text make a subject. -/
theorem validateSubject_base64url {text : String} {n : Nat} (hsmall : SevenBit text)
    (hne : text.toList ≠ []) (hlength : text.toList.length ≤ n) (hn : n ≤ 383) :
    validateSubject (base64url (bytesOf text)) = true := by
  unfold validateSubject
  rw [isBase64url_of_bytes (bytesOf_ne_nil hsmall hne), Bool.true_and, decide_eq_true_eq,
    length_base64url, length_bytesOf hsmall]
  unfold HIERARCHY_SUBJECT_MAX_LENGTH
  omega

theorem validateSubject_encodeKeyset {after : Option Keyset} (h : ∀ k ∈ after, k.Valid) :
    validateSubject (encodeKeyset after) = true := by
  have hshort := shortText_keyset h
  exact validateSubject_base64url hshort.sevenBit (stringify_ne_nil _) hshort.length_stringify
    (by decide)

theorem parseKeyset_encodeKeyset {after : Option Keyset} (h : ∀ k ∈ after, k.Valid) :
    parseKeyset (encodeKeyset after) = .ok after := by
  unfold parseKeyset encodeKeyset
  rw [decodeCanonical_base64url]
  exact readKeyset_stringify h

/-! ## Encrypted keysets -/

section

variable (crypto : NodeCrypto) (secret : String)

theorem toList_encryptSecretWithKey (iv : List UInt8) (value : String) :
    (encryptSecretWithKey crypto secret iv value).toList = ['.'].intercalate
      ["v1".toList, Base64Url.encode iv,
        Base64Url.encode (crypto.encrypt (keyFromSecret crypto secret) iv (bytesOf value)).2,
        Base64Url.encode (crypto.encrypt (keyFromSecret crypto secret) iv (bytesOf value)).1] := by
  unfold encryptSecretWithKey
  simp only [String.toList_intercalate, List.map_cons, List.map_nil, toList_base64url]
  rfl

/-- The four parts of an envelope have no dots in them. -/
theorem splitOn_encryptSecretWithKey (iv : List UInt8) (value : String) :
    (encryptSecretWithKey crypto secret iv value).toList.splitOn '.' =
      ["v1".toList, Base64Url.encode iv,
        Base64Url.encode (crypto.encrypt (keyFromSecret crypto secret) iv (bytesOf value)).2,
        Base64Url.encode (crypto.encrypt (keyFromSecret crypto secret) iv (bytesOf value)).1] := by
  have hdot : ∀ bytes : List UInt8, '.' ∉ Base64Url.encode bytes := by
    intro bytes hmem
    rw [← toList_base64url] at hmem
    exact dot_notMem_base64url bytes hmem
  rw [toList_encryptSecretWithKey]
  apply List.splitOn_intercalate
  · intro part hpart
    simp only [List.mem_cons, List.not_mem_nil, or_false] at hpart
    rcases hpart with rfl | rfl | rfl | rfl
    · decide
    · exact hdot _
    · exact hdot _
    · exact hdot _
  · exact List.cons_ne_nil _ _

theorem encode_ne_nil {bytes : List UInt8} (h : bytes ≠ []) : Base64Url.encode bytes ≠ [] := by
  intro hnil
  have hdecoded := Base64Url.decode_encode bytes
  rw [hnil] at hdecoded
  exact h hdecoded.symm

variable {iv : List UInt8}

theorem decryptSecretWithKey_encryptSecretWithKey {value : String} (hiv : iv.length = 12)
    (hsmall : SevenBit value) (hne : value.toList ≠ []) :
    decryptSecretWithKey crypto secret (encryptSecretWithKey crypto secret iv value) =
      some value := by
  have hlengths := crypto.length_encrypt (keyFromSecret crypto secret) iv (bytesOf value)
  have hivNe : Base64Url.encode iv ≠ [] :=
    encode_ne_nil (List.ne_nil_of_length_pos (by omega))
  have htagNe : Base64Url.encode
      (crypto.encrypt (keyFromSecret crypto secret) iv (bytesOf value)).2 ≠ [] :=
    encode_ne_nil (List.ne_nil_of_length_pos (by omega))
  have hcipherNe : Base64Url.encode
      (crypto.encrypt (keyFromSecret crypto secret) iv (bytesOf value)).1 ≠ [] := by
    refine encode_ne_nil (List.ne_nil_of_length_pos ?_)
    rw [hlengths.1]
    exact List.length_pos_iff.mpr (bytesOf_ne_nil hsmall hne)
  unfold decryptSecretWithKey
  rw [splitOn_encryptSecretWithKey]
  simp only [ne_eq, not_true_eq_false, false_or]
  rw [if_neg (by rintro (h | h | h) <;> contradiction)]
  simp only [Base64Url.decode_encode, crypto.decrypt_encrypt, Option.map_some,
    decode_bytesOf]

/-- An envelope is as long as its parts. -/
theorem envelope_spec {value : String} {n : Nat} (hiv : iv.length = 12)
    (hsmall : SevenBit value) (hn : value.toList.length ≤ n) :
    SevenBit (encryptSecretWithKey crypto secret iv value) ∧
      (encryptSecretWithKey crypto secret iv value).toList ≠ [] ∧
      (encryptSecretWithKey crypto secret iv value).toList.length ≤ 43 + (4 * n + 2) / 3 := by
  have hlengths := crypto.length_encrypt (keyFromSecret crypto secret) iv (bytesOf value)
  have hletters : ∀ (bytes : List UInt8) (c : Char), c ∈ Base64Url.encode bytes →
      c.toNat < 0x80 := by
    intro bytes c hc
    have hbounds := Base64Url.isLetter_bounds (Base64Url.isLetter_of_mem_encode hc)
    omega
  have htext := toList_encryptSecretWithKey crypto secret iv value
  simp only [List.intercalate_cons_cons, List.intercalate_singleton] at htext
  refine ⟨?_, ?_, ?_⟩
  · intro c hc
    rw [htext] at hc
    simp only [List.mem_append, List.mem_singleton] at hc
    have hversion : "v1".toList.all (fun d => d.toNat < 0x80) = true := by decide
    have hdot : '.'.toNat < 0x80 := by decide
    rcases hc with (hc | rfl) | (hc | rfl) | (hc | rfl) | hc
    · exact of_decide_eq_true (List.all_eq_true.mp hversion c hc)
    · exact hdot
    · exact hletters _ c hc
    · exact hdot
    · exact hletters _ c hc
    · exact hdot
    · exact hletters _ c hc
  · rw [htext]
    simp
  · rw [htext]
    simp only [List.length_append, List.length_singleton, Base64Url.length_encode, hiv,
      hlengths.1, hlengths.2, length_bytesOf hsmall]
    have hversion : "v1".toList.length = 2 := rfl
    omega

theorem validateSubject_encodeMemberKeyset {after : Option Keyset} (hiv : iv.length = 12)
    (h : ∀ k ∈ after, k.Valid) :
    validateSubject (encodeMemberKeyset crypto secret iv after) = true := by
  have hshort := shortText_keyset h
  obtain ⟨hsmall, hne, hlength⟩ :=
    envelope_spec crypto secret hiv hshort.sevenBit hshort.length_stringify
  exact validateSubject_base64url hsmall hne hlength (by decide)

theorem parseMemberKeyset_encodeMemberKeyset {after : Option Keyset} (hiv : iv.length = 12)
    (h : ∀ k ∈ after, k.Valid) :
    parseMemberKeyset crypto secret (encodeMemberKeyset crypto secret iv after) = .ok after := by
  have hshort := shortText_keyset h
  obtain ⟨hsmall, -, -⟩ :=
    envelope_spec crypto secret hiv hshort.sevenBit hshort.length_stringify
  have hsubject := validateSubject_encodeMemberKeyset crypto secret hiv h
  have hbound := length_of_validateSubject hsubject
  unfold validateSubject at hsubject
  rw [Bool.and_eq_true] at hsubject
  unfold parseMemberKeyset
  rw [hsubject.1, if_neg (by
    unfold HIERARCHY_TOKEN_MAX_LENGTH
    simp only [Bool.not_true, Bool.false_or, decide_eq_true_eq]
    omega)]
  unfold encodeMemberKeyset
  rw [decodeCanonical_base64url, Option.bind_some,
    decryptSecretWithKey_encryptSecretWithKey crypto secret hiv hshort.sevenBit
      (stringify_ne_nil _)]
  exact readKeyset_stringify h

end

end Refearn.Hierarchy
