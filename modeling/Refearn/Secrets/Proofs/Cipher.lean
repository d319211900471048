import Refearn.Secrets.Cipher
import Refearn.Support.JsonText
import Mathlib.Data.List.Nodup
import Mathlib.Data.Option.Basic
/-!
# The cipher
-/

/-!
## The texts of envelopes

What an envelope says is determined by its text: the letters of bytes come back, nothing else
is taken for them, and the associated data determine the context.
-/

namespace Refearn.Secrets

open Support

/-! ## Bytes and letters -/

theorem ofUtf8_utf8 (text : String) : ofUtf8 (utf8 text) = text := by
  unfold ofUtf8 utf8
  rw [Utf8.decode_encode, String.ofList_toList]

theorem utf8_injective : Function.Injective utf8 := Function.LeftInverse.injective ofUtf8_utf8

theorem utf8_empty : utf8 "" = [] := rfl

theorem utf8_ne_nil {text : String} (h : text ≠ "") : utf8 text ≠ [] := fun hnil =>
  h (utf8_injective (hnil.trans utf8_empty.symm))

/-- A text of seven bits is read from its own bytes only. -/
theorem utf8_ofUtf8 {bytes : List UInt8} (h : ∀ c ∈ (ofUtf8 bytes).toList, c.toNat < 0x80) :
    utf8 (ofUtf8 bytes) = bytes := by
  unfold ofUtf8 utf8 at *
  rw [String.toList_ofList] at h ⊢
  exact Utf8.encode_decode h

theorem encode64Url_ne_nil {bytes : List UInt8} (h : bytes ≠ []) :
    Base64Url.encode bytes ≠ [] := by
  intro hnil
  have hback := Base64Url.decode_encode bytes
  rw [hnil] at hback
  exact h hback.symm

theorem decodeBase64Url_encode {bytes : List UInt8} (h : bytes ≠ []) :
    decodeBase64Url (Base64Url.encode bytes) = some bytes := by
  have hletters : (Base64Url.encode bytes).all Base64Url.isLetter = true :=
    List.all_eq_true.mpr fun _ hc => Base64Url.isLetter_of_mem_encode hc
  unfold decodeBase64Url
  rw [Base64Url.decode_encode, if_neg, if_neg (not_not.mpr rfl)]
  rintro (hnil | hnot)
  · exact encode64Url_ne_nil h hnil
  · rw [hletters] at hnot
    cases hnot

theorem eq_encode_of_decodeBase64Url {value : List Char} {bytes : List UInt8}
    (h : decodeBase64Url value = some bytes) : value = Base64Url.encode bytes := by
  unfold decodeBase64Url at h
  split_ifs at h with _ hback
  injection h with h
  rw [← h]
  exact (not_not.mp hback).symm

theorem decodeText_encode {text : String} (h : text ≠ "") :
    decodeText (Base64Url.encode (utf8 text)) = some text := by
  unfold decodeText
  rw [decodeBase64Url_encode (utf8_ne_nil h), Option.bind_eq_bind, Option.bind_some, ofUtf8_utf8,
    if_neg h]

theorem eq_encode_of_decodeText {value : List Char} {text : String}
    (h : decodeText value = some text) (hsmall : ∀ c ∈ text.toList, c.toNat < 0x80) :
    value = Base64Url.encode (utf8 text) := by
  unfold decodeText at h
  obtain ⟨bytes, hbytes, htext⟩ := Option.bind_eq_some_iff.mp h
  split_ifs at htext
  injection htext with htext
  rw [← htext] at hsmall ⊢
  rw [utf8_ofUtf8 hsmall]
  exact eq_encode_of_decodeBase64Url hbytes

theorem decodeBase64_encode {bytes : List UInt8} (h : bytes ≠ []) :
    decodeBase64 (Base64.encode bytes) = some bytes := by
  unfold decodeBase64
  rw [Base64.decode_encode, Base64.isBase64_encode, if_neg, if_neg (not_not.mpr rfl)]
  rintro (hnil | hnot)
  · exact Base64.encode_ne_nil h hnil
  · cases hnot

theorem decodeBase64_nil : decodeBase64 [] = none := if_pos (.inl rfl)

theorem eq_encode_of_decodeBase64 {value : List Char} {bytes : List UInt8}
    (h : decodeBase64 value = some bytes) : value = Base64.encode bytes := by
  unfold decodeBase64 at h
  split_ifs at h with _ hback
  injection h with h
  rw [← h]
  exact (not_not.mp hback).symm

/-! ## Parts -/

theorem parts_joined {texts : List (List Char)} (hne : texts ≠ []) (h : ∀ t ∈ texts, '.' ∉ t) :
    parts (joined texts) = texts := by
  unfold parts joined
  rw [String.toList_ofList]
  exact List.splitOn_intercalate _ h hne

theorem joined_parts (text : String) : joined (parts text) = text := by
  unfold parts joined
  rw [List.intercalate_splitOn, String.ofList_toList]

theorem dot_notMem_encode64Url (bytes : List UInt8) : '.' ∉ Base64Url.encode bytes := fun h =>
  (Base64Url.isLetter_bounds (Base64Url.isLetter_of_mem_encode h)).2.2 rfl

theorem dot_notMem_version : '.' ∉ VERSION.toList := by decide

/-! ## Both formats -/

def v1Text (providerId keyId : String) (payload : List UInt8) : String :=
  joined [VERSION.toList, Base64Url.encode (utf8 providerId), Base64Url.encode (utf8 keyId),
    Base64Url.encode payload]

def legacyText (iv tag ciphertext : List UInt8) : String :=
  joined [Base64.encode iv, Base64.encode tag, Base64.encode ciphertext]

theorem parts_v1Text (providerId keyId : String) (payload : List UInt8) :
    parts (v1Text providerId keyId payload) =
      [VERSION.toList, Base64Url.encode (utf8 providerId), Base64Url.encode (utf8 keyId),
        Base64Url.encode payload] := by
  apply parts_joined (List.cons_ne_nil _ _)
  intro t ht
  simp only [List.mem_cons, List.not_mem_nil, or_false] at ht
  rcases ht with rfl | rfl | rfl | rfl
  · exact dot_notMem_version
  all_goals exact dot_notMem_encode64Url _

theorem parts_legacyText (iv tag ciphertext : List UInt8) :
    parts (legacyText iv tag ciphertext) =
      [Base64.encode iv, Base64.encode tag, Base64.encode ciphertext] := by
  apply parts_joined (List.cons_ne_nil _ _)
  intro t ht
  simp only [List.mem_cons, List.not_mem_nil, or_false] at ht
  rcases ht with rfl | rfl | rfl <;> exact Base64.dot_notMem_encode _

theorem isVersioned_iff (envelope : String) :
    isVersioned envelope = true ↔ ∃ rest, envelope.toList = VERSION.toList ++ '.' :: rest := by
  unfold isVersioned
  rw [List.isPrefixOf_iff_prefix]
  constructor
  · rintro ⟨rest, hrest⟩
    exact ⟨rest, by rw [← hrest, String.toList_append, List.append_assoc]; rfl⟩
  · rintro ⟨rest, hrest⟩
    exact ⟨rest, by rw [hrest, String.toList_append, List.append_assoc]; rfl⟩

theorem isVersioned_v1Text (providerId keyId : String) (payload : List UInt8) :
    isVersioned (v1Text providerId keyId payload) = true := by
  refine (isVersioned_iff _).mpr ⟨['.'].intercalate [Base64Url.encode (utf8 providerId),
    Base64Url.encode (utf8 keyId), Base64Url.encode payload], ?_⟩
  unfold v1Text joined
  rw [String.toList_ofList]
  rfl

/-- The first part of what starts like the new format. -/
theorem parts_of_isVersioned {envelope : String} (h : isVersioned envelope = true) :
    ∃ rest, parts envelope = VERSION.toList :: rest := by
  obtain ⟨rest, hrest⟩ := (isVersioned_iff envelope).mp h
  unfold parts
  rw [hrest, List.splitOn_append_cons_self_of_not_mem dot_notMem_version]
  exact ⟨_, rfl⟩

/-- An envelope of the old format is the text of its initial vector, tag and ciphertext. -/
theorem legacyText_of_validate {envelope : String} (h : validateLegacyEnvelope envelope = true) :
    ∃ iv tag ciphertext, envelope = legacyText iv tag ciphertext ∧ iv.length = IV_BYTES ∧
      tag.length = AUTH_TAG_BYTES ∧ ciphertext ≠ [] := by
  unfold validateLegacyEnvelope at h
  split at h
  · rename_i ivB tagB encB hparts
    split at h
    · rename_i iv tag ciphertext hiv htag henc
      simp only [Bool.and_eq_true, decide_eq_true_eq] at h
      refine ⟨iv, tag, ciphertext, ?_, h.1.1, h.1.2, List.ne_nil_of_length_pos
        (Nat.pos_of_ne_zero h.2)⟩
      rw [← joined_parts envelope, hparts, eq_encode_of_decodeBase64 hiv,
        eq_encode_of_decodeBase64 htag, eq_encode_of_decodeBase64 henc]
      rfl
    · cases h
  · cases h

/-- Initial vectors are longer than the name of the version. -/
theorem not_isVersioned_legacyText {iv tag ciphertext : List UInt8} (hiv : iv.length = IV_BYTES) :
    isVersioned (legacyText iv tag ciphertext) = false := by
  rw [← Bool.not_eq_true]
  intro hversioned
  obtain ⟨rest, hrest⟩ := parts_of_isVersioned hversioned
  rw [parts_legacyText] at hrest
  injection hrest with hhead
  have hback := Base64.decode_encode iv
  have hshort : (Base64.decode VERSION.toList).length = 1 := by decide
  rw [hhead] at hback
  rw [← hback, hshort] at hiv
  exact absurd hiv (by decide)

theorem validate_legacyText {iv tag ciphertext : List UInt8} (hiv : iv.length = IV_BYTES)
    (htag : tag.length = AUTH_TAG_BYTES) (h : ciphertext ≠ []) :
    validateLegacyEnvelope (legacyText iv tag ciphertext) = true := by
  have hivNe : iv ≠ [] := List.ne_nil_of_length_pos (by rw [hiv]; decide)
  have htagNe : tag ≠ [] := List.ne_nil_of_length_pos (by rw [htag]; decide)
  unfold validateLegacyEnvelope
  rw [parts_legacyText]
  simp only [decodeBase64_encode hivNe, decodeBase64_encode htagNe, decodeBase64_encode h, hiv,
    htag]
  simpa using h

/-- No ciphertext, no envelope. -/
theorem not_validate_legacyText_nil (iv tag : List UInt8) :
    validateLegacyEnvelope (legacyText iv tag []) = false := by
  unfold validateLegacyEnvelope
  rw [parts_legacyText]
  have hnone : decodeBase64 (Base64.encode []) = none := decodeBase64_nil
  simp only [hnone]
  cases decodeBase64 (Base64.encode iv) with
  | none => rfl
  | some _ =>
      cases decodeBase64 (Base64.encode tag) with
      | none => rfl
      | some _ => rfl

/-- A text of one format is none of the other. -/
theorem not_validate_v1Text (providerId keyId : String) (payload : List UInt8) :
    validateLegacyEnvelope (v1Text providerId keyId payload) = false := by
  unfold validateLegacyEnvelope
  rw [parts_v1Text]

/-! ## Associated data -/

theorem ofOption_injective : Function.Injective Json.ofOption := by
  intro a b h
  cases a <;> cases b <;> simp [Json.ofOption] at h ⊢
  exact h

/-- The associated data determine provider, key and context. -/
theorem canonicalAad_inj {providerId providerId' keyId keyId' : String}
    {context context' : SecretContext}
    (h : canonicalAad providerId keyId context = canonicalAad providerId' keyId' context') :
    providerId = providerId' ∧ keyId = keyId' ∧ context = context' := by
  unfold canonicalAad at h
  have hjson := Json.stringify_injective (utf8_injective h)
  unfold canonicalJson at hjson
  injection hjson with hjson
  simp only [List.cons.injEq, Prod.mk.injEq, Json.str.injEq, true_and, and_true] at hjson
  obtain ⟨hprovider, hkey, hpurpose, htenant, hrecord⟩ := hjson
  refine ⟨hprovider, hkey, ?_⟩
  cases context
  cases context'
  simp only at hpurpose htenant hrecord
  rw [hpurpose, ofOption_injective htenant, hrecord]

end Refearn.Secrets

/-!
## What an envelope promises

Encryption is ideal when what opens is what was sealed, under the same associated data. Then an
envelope of the new format opens under its own context only, and no other text does that was
not itself issued. The old format refuses the envelope of the empty plaintext that its own
writer makes.
-/

namespace Refearn.Secrets

open Support

/-! ## Ideal encryption -/

/-- One sealing of a provider. -/
structure Sealing where
  keyId : String
  plaintext : List UInt8
  aad : List UInt8
  payload : List UInt8

/-- Trusted providers open exactly what they sealed, and no two sealings look alike. -/
structure IdealProviders (trusted : SecretCryptoProvider → Prop)
    (sealings : SecretCryptoProvider → Sealing → Prop) : Prop where
  opens : ∀ {p s}, trusted p → sealings p s →
    p.openPayload s.keyId s.payload s.aad = some s.plaintext
  authentic : ∀ {p keyId payload aad plaintext}, trusted p →
    p.openPayload keyId payload aad = some plaintext → sealings p ⟨keyId, plaintext, aad, payload⟩
  once : ∀ {p q s t}, trusted p → trusted q → sealings p s → sealings q t →
    p.providerId = q.providerId → s.keyId = t.keyId → s.payload = t.payload → p = q ∧ s = t
  provider_ne : ∀ {p}, trusted p → p.providerId ≠ ""
  provider_small : ∀ {p}, trusted p → ∀ c ∈ p.providerId.toList, c.toNat < 0x80
  key_ne : ∀ {p s}, trusted p → sealings p s → s.keyId ≠ ""
  key_small : ∀ {p s}, trusted p → sealings p s → ∀ c ∈ s.keyId.toList, c.toNat < 0x80
  payload_ne : ∀ {p s}, trusted p → sealings p s → s.payload ≠ []

/-- One call of AES-GCM that encrypted. -/
structure GcmSealing where
  key : List UInt8
  iv : List UInt8
  aad : List UInt8
  plaintext : List UInt8
  tag : List UInt8
  ciphertext : List UInt8

/-- AES-GCM decrypts exactly what it encrypted, under initial vectors that do not repeat. -/
structure IdealGcm (gcm : AesGcm) (made : GcmSealing → Prop) : Prop where
  opens : ∀ {s}, made s → gcm.decrypt s.key s.iv s.tag s.aad s.ciphertext = some s.plaintext
  authentic : ∀ {key iv tag aad ciphertext plaintext},
    gcm.decrypt key iv tag aad ciphertext = some plaintext →
      made ⟨key, iv, aad, plaintext, tag, ciphertext⟩
  once : ∀ {s t}, made s → made t → s.key = t.key → s.iv = t.iv → s = t
  length_iv : ∀ {s}, made s → s.iv.length = IV_BYTES
  length_tag : ∀ {s}, made s → s.tag.length = AUTH_TAG_BYTES
  length_ciphertext : ∀ {s}, made s → s.ciphertext.length = s.plaintext.length

/-! ## The provider of the environment -/

section Environment

variable {gcm : AesGcm} {made : GcmSealing → Prop} {hash : List UInt8 → List UInt8}
  {keys : List UInt8 → Prop}

def EnvTrusted (gcm : AesGcm) (hash : List UInt8 → List UInt8) (keys : List UInt8 → Prop)
    (p : SecretCryptoProvider) : Prop :=
  ∃ key, keys key ∧ p = envAesGcm gcm hash key

/-- The sealings of a provider are those of AES-GCM under its key. -/
def EnvSealings (gcm : AesGcm) (made : GcmSealing → Prop) (hash : List UInt8 → List UInt8)
    (keys : List UInt8 → Prop) (p : SecretCryptoProvider) (s : Sealing) : Prop :=
  ∃ m, made m ∧ keys m.key ∧ p = envAesGcm gcm hash m.key ∧
    s = ⟨envKeyId hash m.key, m.plaintext, m.aad, m.iv ++ m.tag ++ m.ciphertext⟩

theorem openPayload_envAesGcm (key payload aad : List UInt8) (keyId : String) :
    (envAesGcm gcm hash key).openPayload keyId payload aad =
      if keyId ≠ envKeyId hash key then none
      else if payload.length < IV_BYTES + AUTH_TAG_BYTES then none
      else gcm.decrypt key (payload.take IV_BYTES)
        ((payload.drop IV_BYTES).take AUTH_TAG_BYTES) aad
        (payload.drop (IV_BYTES + AUTH_TAG_BYTES)) := rfl

theorem sealPayload_envAesGcm (key iv plaintext aad : List UInt8) :
    (envAesGcm gcm hash key).sealPayload iv (envKeyId hash key) plaintext aad =
      some (iv ++ (gcm.encrypt key iv aad plaintext).2 ++ (gcm.encrypt key iv aad plaintext).1) :=
  if_neg (not_not.mpr rfl)

/-- The payload of a sealing is cut where it was put together. -/
theorem payload_cut {iv tag ciphertext : List UInt8} (hiv : iv.length = IV_BYTES)
    (htag : tag.length = AUTH_TAG_BYTES) :
    (iv ++ tag ++ ciphertext).take IV_BYTES = iv ∧
      ((iv ++ tag ++ ciphertext).drop IV_BYTES).take AUTH_TAG_BYTES = tag ∧
      (iv ++ tag ++ ciphertext).drop (IV_BYTES + AUTH_TAG_BYTES) = ciphertext := by
  have hboth : (iv ++ tag).length = IV_BYTES + AUTH_TAG_BYTES := by
    rw [List.length_append, hiv, htag]
  refine ⟨?_, ?_, ?_⟩
  · rw [List.append_assoc, ← hiv, List.take_left]
  · rw [List.append_assoc, ← hiv, List.drop_left, ← htag, List.take_left]
  · rw [← hboth, List.drop_left]

theorem payload_joined (payload : List UInt8) :
    payload.take IV_BYTES ++ (payload.drop IV_BYTES).take AUTH_TAG_BYTES ++
      payload.drop (IV_BYTES + AUTH_TAG_BYTES) = payload := by
  rw [← List.take_add, List.take_append_drop]

theorem toList_envKeyId (key : List UInt8) :
    (envKeyId hash key).toList = (Base64Url.encode (hash key)).take 22 := String.toList_ofList

theorem envKeyId_small (key : List UInt8) : ∀ c ∈ (envKeyId hash key).toList, c.toNat < 0x80 := by
  intro c hc
  rw [toList_envKeyId] at hc
  have hbounds := Base64Url.isLetter_bounds
    (Base64Url.isLetter_of_mem_encode (List.mem_of_mem_take hc))
  omega

theorem envKeyId_ne (hhash : ∀ message, (hash message).length = 32) (key : List UInt8) :
    envKeyId hash key ≠ "" := by
  intro h
  have hnil : (envKeyId hash key).toList = [] := by rw [h]; rfl
  have hlength := congrArg List.length hnil
  rw [toList_envKeyId, List.length_take, Base64Url.length_encode, hhash] at hlength
  exact absurd hlength (by decide)

/-- Ideal AES-GCM makes the provider of the environment ideal, as long as the keys in use have
different names. -/
theorem idealProviders_env (hgcm : IdealGcm gcm made)
    (hhash : ∀ message, (hash message).length = 32)
    (hnames : ∀ {key key'}, keys key → keys key' → envKeyId hash key = envKeyId hash key' →
      key = key') :
    IdealProviders (EnvTrusted gcm hash keys) (EnvSealings gcm made hash keys) where
  opens := by
    rintro p s - ⟨m, hmade, -, rfl, rfl⟩
    obtain ⟨hiv, htag, hciphertext⟩ := @payload_cut m.iv m.tag m.ciphertext
      (hgcm.length_iv hmade) (hgcm.length_tag hmade)
    have hlong : ¬ (m.iv ++ m.tag ++ m.ciphertext).length < IV_BYTES + AUTH_TAG_BYTES := by
      rw [List.length_append, List.length_append, hgcm.length_iv hmade, hgcm.length_tag hmade]
      omega
    rw [openPayload_envAesGcm, if_neg (not_not.mpr rfl), if_neg hlong, hiv, htag, hciphertext]
    exact hgcm.opens hmade
  authentic := by
    rintro p keyId payload aad plaintext ⟨key, hkey, rfl⟩ hopen
    rw [openPayload_envAesGcm] at hopen
    split_ifs at hopen with hname
    exact ⟨_, hgcm.authentic hopen, hkey, rfl, by rw [payload_joined, not_not.mp hname]⟩
  once := by
    rintro p q s t - - ⟨m, hm, hkey, rfl, rfl⟩ ⟨n, hn, hkey', rfl, rfl⟩ - hname hpayload
    have hsame : m.key = n.key := hnames hkey hkey' hname
    have hiv : m.iv = n.iv := by
      have hcut := @payload_cut m.iv m.tag m.ciphertext (hgcm.length_iv hm)
        (hgcm.length_tag hm)
      have hcut' := @payload_cut n.iv n.tag n.ciphertext (hgcm.length_iv hn)
        (hgcm.length_tag hn)
      rw [← hcut.1, ← hcut'.1]
      exact congrArg (List.take IV_BYTES) hpayload
    rw [hgcm.once hm hn hsame hiv]
    exact ⟨rfl, rfl⟩
  provider_ne := by
    rintro p ⟨key, -, rfl⟩
    exact (by decide : "env-aes-256-gcm" ≠ "")
  provider_small := by
    rintro p ⟨key, -, rfl⟩
    have hall : "env-aes-256-gcm".toList.all (fun c => c.toNat < 0x80) = true := by
      decide
    exact fun c hc => of_decide_eq_true (List.all_eq_true.mp hall c hc)
  key_ne := by
    rintro p s - ⟨m, -, -, rfl, rfl⟩
    exact envKeyId_ne hhash m.key
  key_small := by
    rintro p s - ⟨m, -, -, rfl, rfl⟩
    exact envKeyId_small m.key
  payload_ne := by
    rintro p s - ⟨m, hmade, -, rfl, rfl⟩
    apply List.ne_nil_of_length_pos
    rw [List.length_append, List.length_append, hgcm.length_iv hmade]
    exact Nat.lt_of_lt_of_le (by decide : 0 < IV_BYTES) (by omega)

end Environment

/-! ## Reading -/

section Reading

variable {gcm : AesGcm} {made : GcmSealing → Prop} {trusted : SecretCryptoProvider → Prop}
  {sealings : SecretCryptoProvider → Sealing → Prop} {cipher : VersionedSecretCipher}
  {envelope plaintext : String} {context : SecretContext}

/-- The cipher was given an envelope that was issued: of the new format for this very context, or
of the old one, which has none. -/
inductive Issued (made : GcmSealing → Prop) (sealings : SecretCryptoProvider → Sealing → Prop)
    (cipher : VersionedSecretCipher) (context : SecretContext) (plaintext : String) :
    String → Prop
  | v1 {p : SecretCryptoProvider} {s : Sealing} (hp : p ∈ cipher.providers) (hs : sealings p s)
      (haad : s.aad = canonicalAad p.providerId s.keyId context)
      (hplain : plaintext = ofUtf8 s.plaintext) :
      Issued made sealings cipher context plaintext (v1Text p.providerId s.keyId s.payload)
  | legacy {m : GcmSealing} (hm : made m) (hkey : m.key = cipher.encryptionKey)
      (haad : m.aad = []) (hplain : plaintext = ofUtf8 m.plaintext) :
      Issued made sealings cipher context plaintext (legacyText m.iv m.tag m.ciphertext)

/-- A provider is found under its own name. -/
theorem find?_provider {p : SecretCryptoProvider} (hp : p ∈ cipher.providers) :
    cipher.providers.find? (·.providerId = p.providerId) = some p := by
  have hdistinct := cipher.distinct
  change (cipher.providers.map (·.providerId)).Nodup at hdistinct
  obtain ⟨q, hq⟩ : ∃ q, cipher.providers.find? (·.providerId = p.providerId) = some q :=
    Option.isSome_iff_exists.mp (List.find?_isSome.mpr ⟨p, hp, decide_eq_true rfl⟩)
  have hname := List.find?_some hq
  rw [hq, List.inj_on_of_nodup_map hdistinct (List.mem_of_find?_eq_some hq) hp
    (of_decide_eq_true hname)]

theorem decryptEither_of_ok
    (h : decrypt gcm cipher envelope context = .ok plaintext) :
    decryptEither gcm cipher envelope context = some plaintext := by
  unfold decrypt at h
  split at h
  · rename_i found hfound
    injection h with h
    rw [hfound, h]
  · cases h

/-- What the new format reads is the text of a sealing for this context. -/
theorem decryptV1_eq_some (hideal : IdealProviders trusted sealings)
    (htrusted : ∀ p ∈ cipher.providers, trusted p)
    (h : decryptV1 cipher envelope context = some plaintext) :
    ∃ p ∈ cipher.providers, ∃ s, sealings p s ∧
      s.aad = canonicalAad p.providerId s.keyId context ∧ plaintext = ofUtf8 s.plaintext ∧
      envelope = v1Text p.providerId s.keyId s.payload := by
  unfold decryptV1 at h
  split at h
  case h_2 => cases h
  rename_i version providerB keyB payloadB hparts
  obtain ⟨_, hversion, h⟩ := Option.bind_eq_some_iff.mp h
  obtain ⟨providerId, hproviderB, h⟩ := Option.bind_eq_some_iff.mp h
  obtain ⟨keyId, hkeyB, h⟩ := Option.bind_eq_some_iff.mp h
  obtain ⟨payload, hpayloadB, h⟩ := Option.bind_eq_some_iff.mp h
  obtain ⟨p, hfind, h⟩ := Option.bind_eq_some_iff.mp h
  obtain ⟨plain, hopen, htext⟩ := Option.bind_eq_some_iff.mp h
  injection htext with htext
  have hversion' := (Option.guard_eq_some' _).mp hversion
  have hp := List.mem_of_find?_eq_some hfind
  have hname := List.find?_some hfind
  have hid : p.providerId = providerId := of_decide_eq_true hname
  subst hid
  have hsealed := hideal.authentic (htrusted p hp) hopen
  refine ⟨p, hp, _, hsealed, rfl, htext.symm, ?_⟩
  rw [← joined_parts envelope, hparts, hversion',
    eq_encode_of_decodeText hproviderB (hideal.provider_small (htrusted p hp)),
    eq_encode_of_decodeText hkeyB (hideal.key_small (htrusted p hp) hsealed),
    eq_encode_of_decodeBase64Url hpayloadB]
  rfl

/-- A sealing for this context is read. -/
theorem decryptV1_v1Text (hideal : IdealProviders trusted sealings) {p : SecretCryptoProvider}
    {keyId : String} {plain payload : List UInt8} (htrusted : trusted p)
    (hp : p ∈ cipher.providers)
    (hs : sealings p ⟨keyId, plain, canonicalAad p.providerId keyId context, payload⟩) :
    decryptV1 cipher (v1Text p.providerId keyId payload) context = some (ofUtf8 plain) := by
  have hopen : p.openPayload keyId payload (canonicalAad p.providerId keyId context) =
      some plain := hideal.opens htrusted hs
  have hkey : keyId ≠ "" := hideal.key_ne htrusted hs
  have hpayload : payload ≠ [] := hideal.payload_ne htrusted hs
  unfold decryptV1
  rw [parts_v1Text]
  simp only [decodeText_encode (hideal.provider_ne htrusted), decodeText_encode hkey,
    decodeBase64Url_encode hpayload, Option.bind_eq_bind, Option.bind_some, find?_provider hp,
    hopen, guard_true]
  rfl

/-- What the old helper reads was made under its key. -/
theorem decryptSecret_eq_some (hgcm : IdealGcm gcm made) {key : List UInt8}
    (hvalid : validateLegacyEnvelope envelope = true)
    (h : decryptSecret gcm key envelope = some plaintext) :
    ∃ m, made m ∧ m.key = key ∧ m.aad = [] ∧ plaintext = ofUtf8 m.plaintext ∧
      envelope = legacyText m.iv m.tag m.ciphertext := by
  obtain ⟨iv, tag, ciphertext, rfl, -, -, -⟩ := legacyText_of_validate hvalid
  unfold decryptSecret at h
  rw [parts_legacyText] at h
  simp only [Base64.decode_encode] at h
  obtain ⟨plain, hplain, htext⟩ := Option.map_eq_some_iff.mp h
  exact ⟨_, hgcm.authentic hplain, rfl, rfl, htext.symm, rfl⟩

theorem decryptSecret_legacyText {key iv tag ciphertext plain : List UInt8}
    (h : gcm.decrypt key iv tag [] ciphertext = some plain) :
    decryptSecret gcm key (legacyText iv tag ciphertext) = some (ofUtf8 plain) := by
  unfold decryptSecret
  rw [parts_legacyText]
  simp only [Base64.decode_encode, h, Option.map_some]

/-- Whatever is read was issued. -/
theorem issued_of_decrypt (hideal : IdealProviders trusted sealings) (hgcm : IdealGcm gcm made)
    (htrusted : ∀ p ∈ cipher.providers, trusted p)
    (h : decrypt gcm cipher envelope context = .ok plaintext) :
    Issued made sealings cipher context plaintext envelope := by
  have heither := decryptEither_of_ok h
  unfold decryptEither at heither
  obtain ⟨-, -, heither⟩ := Option.bind_eq_some_iff.mp heither
  split_ifs at heither with hversioned
  · obtain ⟨p, hp, s, hs, haad, hplain, rfl⟩ := decryptV1_eq_some hideal htrusted heither
    exact .v1 hp hs haad hplain
  · obtain ⟨_, hvalid, hsecret⟩ := Option.bind_eq_some_iff.mp heither
    obtain ⟨m, hm, hkey, haad, hplain, rfl⟩ :=
      decryptSecret_eq_some hgcm ((Option.guard_eq_some' _).mp hvalid) hsecret
    exact .legacy hm hkey haad hplain

/-- The text of a sealing is read by its own provider under its own context only. -/
theorem decrypt_v1Text (hideal : IdealProviders trusted sealings) {p : SecretCryptoProvider}
    {keyId : String} {plain payload : List UInt8} {context' : SecretContext} (hp : trusted p)
    (hs : sealings p ⟨keyId, plain, canonicalAad p.providerId keyId context, payload⟩)
    (htrusted : ∀ q ∈ cipher.providers, trusted q)
    (h : decrypt gcm cipher (v1Text p.providerId keyId payload) context' = .ok plaintext) :
    p ∈ cipher.providers ∧ context' = context ∧ plaintext = ofUtf8 plain := by
  have heither := decryptEither_of_ok h
  unfold decryptEither at heither
  obtain ⟨-, -, heither⟩ := Option.bind_eq_some_iff.mp heither
  rw [if_pos (isVersioned_v1Text _ _ _)] at heither
  obtain ⟨q, hq, t, ht, haad, hplain, htext⟩ := decryptV1_eq_some hideal htrusted heither
  have hparts := congrArg parts htext
  rw [parts_v1Text, parts_v1Text] at hparts
  simp only [List.cons.injEq, and_true, true_and] at hparts
  obtain ⟨hprovider, hkey, hpayload⟩ := hparts
  have hname := utf8_injective (Base64Url.encode_injective hprovider)
  obtain ⟨hsame, hsealing⟩ := hideal.once hp (htrusted q hq) hs ht hname
    (utf8_injective (Base64Url.encode_injective hkey)) (Base64Url.encode_injective hpayload)
  rw [← hsealing] at haad hplain
  rw [hsame]
  exact ⟨hq, (canonicalAad_inj haad).2.2.symm, hplain⟩

end Reading

/-! ## One sealing -/

section OneSealing

/-- AES-GCM that has encrypted once. -/
def oneSealing (m : GcmSealing) : AesGcm where
  encrypt _ _ _ plain := (plain, .replicate 16 0)
  decrypt key iv tag aad ciphertext :=
    if key = m.key ∧ iv = m.iv ∧ tag = m.tag ∧ aad = m.aad ∧ ciphertext = m.ciphertext then
      some m.plaintext
    else none
  length_encrypt _ _ _ _ := ⟨rfl, List.length_replicate⟩

theorem idealGcm_oneSealing {m : GcmSealing} (hiv : m.iv.length = IV_BYTES)
    (htag : m.tag.length = AUTH_TAG_BYTES) (h : m.ciphertext.length = m.plaintext.length) :
    IdealGcm (oneSealing m) (· = m) where
  opens := by
    rintro s rfl
    exact if_pos ⟨rfl, rfl, rfl, rfl, rfl⟩
  authentic := by
    intro key iv tag aad ciphertext plaintext hopen
    simp only [oneSealing] at hopen
    split_ifs at hopen with hsame
    obtain ⟨rfl, rfl, rfl, rfl, rfl⟩ := hsame
    injection hopen with hopen
    rw [← hopen]
  once := by
    rintro s t rfl rfl - -
    rfl
  length_iv := by
    rintro s rfl
    exact hiv
  length_tag := by
    rintro s rfl
    exact htag
  length_ciphertext := by
    rintro s rfl
    exact h

def zeroHash (_ : List UInt8) : List UInt8 := .replicate 32 0

theorem idealProviders_one {m : GcmSealing} (hgcm : IdealGcm (oneSealing m) (· = m))
    (key : List UInt8) :
    IdealProviders (EnvTrusted (oneSealing m) zeroHash (· = key))
      (EnvSealings (oneSealing m) (· = m) zeroHash (· = key)) :=
  idealProviders_env hgcm (fun _ => List.length_replicate) fun hk hk' _ => hk.trans hk'.symm

def totpContext : SecretContext := ⟨"user-totp", none, "0d5b7a52"⟩

theorem validateContext_totp : validateContext totpContext = true := by decide

def oneKey : List UInt8 := .replicate 32 1

def oneIv : List UInt8 := .replicate 12 7

def oneCipher (gcm : AesGcm) (writeVersion : WriteVersion) : VersionedSecretCipher where
  activeProvider := envAesGcm gcm zeroHash oneKey
  otherProviders := []
  writeVersion := writeVersion
  encryptionKey := oneKey
  distinct := List.nodup_singleton _

theorem activeProvider_mem (gcm : AesGcm) (writeVersion writeVersion' : WriteVersion) :
    (oneCipher gcm writeVersion).activeProvider ∈ (oneCipher gcm writeVersion').providers :=
  List.mem_singleton_self _

theorem trusted_oneCipher {m : GcmSealing} {writeVersion : WriteVersion} :
    ∀ p ∈ (oneCipher (oneSealing m) writeVersion).providers,
      EnvTrusted (oneSealing m) zeroHash (· = oneKey) p := fun _ hp =>
  ⟨oneKey, rfl, List.mem_singleton.mp hp⟩

/-- What the new format seals of a text. -/
def v1Sealing (plaintext : String) : GcmSealing :=
  ⟨oneKey, oneIv,
    canonicalAad "env-aes-256-gcm" (envKeyId zeroHash oneKey) totpContext,
    utf8 plaintext, .replicate 16 0, utf8 plaintext⟩

/-- What the old format seals of a text. -/
def legacySealing (plaintext : String) : GcmSealing :=
  ⟨oneKey, oneIv, [], utf8 plaintext, .replicate 16 0, utf8 plaintext⟩

end OneSealing

/-! ## Promises -/

section Promises

variable {gcm : AesGcm} {made : GcmSealing → Prop} {trusted : SecretCryptoProvider → Prop}
  {sealings : SecretCryptoProvider → Sealing → Prop} {writer : VersionedSecretCipher}
  {entropy : List UInt8} {plaintext : String} {context : SecretContext}

/-- The one call of a provider, or of AES-GCM, that `encrypt` makes is among the sealings. -/
def Recorded (gcm : AesGcm) (made : GcmSealing → Prop)
    (sealings : SecretCryptoProvider → Sealing → Prop) (writer : VersionedSecretCipher)
    (entropy : List UInt8) (plaintext : String) (context : SecretContext) : Prop :=
  match writer.writeVersion with
  | .legacy =>
      made ⟨writer.encryptionKey, entropy, [], utf8 plaintext,
        (gcm.encrypt writer.encryptionKey entropy [] (utf8 plaintext)).2,
        (gcm.encrypt writer.encryptionKey entropy [] (utf8 plaintext)).1⟩
  | .v1 =>
      let p := writer.activeProvider
      let aad := canonicalAad p.providerId p.activeKeyId context
      ∃ payload, p.sealPayload entropy p.activeKeyId (utf8 plaintext) aad = some payload ∧
        sealings p ⟨p.activeKeyId, utf8 plaintext, aad, payload⟩

/-- What is promised of the envelope of one call of `encrypt`: it is read back by a cipher with
the same provider; in the new format it is read by no other provider and under no other context;
no text is read that was not issued; and no text is of both formats. -/
structure KeepsSecrets (gcm : AesGcm) (made : GcmSealing → Prop)
    (trusted : SecretCryptoProvider → Prop) (sealings : SecretCryptoProvider → Sealing → Prop)
    (writer reader : VersionedSecretCipher) (entropy : List UInt8) (plaintext : String)
    (context : SecretContext) : Prop where
  roundTrip : ∃ envelope, encrypt gcm writer entropy plaintext context = .ok envelope ∧
    decrypt gcm reader envelope context = .ok plaintext
  bound : writer.writeVersion = .v1 → ∀ envelope,
    encrypt gcm writer entropy plaintext context = .ok envelope →
      ∀ other : VersionedSecretCipher, (∀ p ∈ other.providers, trusted p) → ∀ context' text,
        decrypt gcm other envelope context' = .ok text →
          writer.activeProvider ∈ other.providers ∧ context' = context ∧ text = plaintext
  unforged : ∀ other : VersionedSecretCipher, (∀ p ∈ other.providers, trusted p) →
    ∀ envelope context' text, decrypt gcm other envelope context' = .ok text →
      Issued made sealings other context' text envelope
  oneFormat : ∀ (other : VersionedSecretCipher) envelope context',
    decryptV1 other envelope context' ≠ none → validateLegacyEnvelope envelope = false

/-- The new format reads four parts, the old one three. -/
theorem oneFormat_decryptV1 {cipher : VersionedSecretCipher} {envelope : String}
    (h : decryptV1 cipher envelope context ≠ none) : validateLegacyEnvelope envelope = false := by
  unfold decryptV1 at h
  split at h
  · rename_i hparts
    unfold validateLegacyEnvelope
    rw [hparts]
  · exact absurd rfl h

/-- In the new format `encrypt` gives the text of its sealing. -/
theorem encrypt_v1 (hideal : IdealProviders trusted sealings)
    (htrusted : trusted writer.activeProvider) (hversion : writer.writeVersion = .v1)
    (hcontext : validateContext context = true)
    (h : Recorded gcm made sealings writer entropy plaintext context) :
    ∃ payload, sealings writer.activeProvider ⟨writer.activeProvider.activeKeyId, utf8 plaintext,
        canonicalAad writer.activeProvider.providerId writer.activeProvider.activeKeyId context,
        payload⟩ ∧
      encrypt gcm writer entropy plaintext context =
        .ok (v1Text writer.activeProvider.providerId writer.activeProvider.activeKeyId payload) := by
  unfold Recorded at h
  rw [hversion] at h
  obtain ⟨payload, hseal, hsealed⟩ := h
  refine ⟨payload, hsealed, ?_⟩
  have hkey := hideal.key_ne htrusted hsealed
  have hname := hideal.provider_ne htrusted
  unfold encrypt encryptV1 encodeText
  simp only [hversion, hcontext, hseal, guard_true, if_neg hname, if_neg hkey,
    Option.bind_eq_bind, Option.bind_some, Option.pure_def]
  rfl

theorem encrypt_legacy (hversion : writer.writeVersion = .legacy) :
    encrypt gcm writer entropy plaintext context =
      .ok (legacyText entropy (gcm.encrypt writer.encryptionKey entropy [] (utf8 plaintext)).2
        (gcm.encrypt writer.encryptionKey entropy [] (utf8 plaintext)).1) := by
  unfold encrypt
  rw [hversion]
  rfl

theorem decrypt_ok_of_either {cipher : VersionedSecretCipher} {envelope : String}
    (h : decryptEither gcm cipher envelope context = some plaintext) :
    decrypt gcm cipher envelope context = .ok plaintext := by
  unfold decrypt
  rw [h]

theorem decrypt_v1_ok (gcm : AesGcm) (hideal : IdealProviders trusted sealings)
    {cipher : VersionedSecretCipher} {p : SecretCryptoProvider} {keyId : String}
    {plain payload : List UInt8} (htrusted : trusted p) (hp : p ∈ cipher.providers)
    (hs : sealings p ⟨keyId, plain, canonicalAad p.providerId keyId context, payload⟩)
    (hcontext : validateContext context = true) :
    decrypt gcm cipher (v1Text p.providerId keyId payload) context = .ok (ofUtf8 plain) := by
  have hread := decryptV1_v1Text hideal htrusted hp hs
  apply decrypt_ok_of_either
  unfold decryptEither
  rw [hcontext, if_pos (isVersioned_v1Text _ _ _), hread]
  rfl

theorem decrypt_legacy_ok {cipher : VersionedSecretCipher} {iv tag ciphertext plain : List UInt8}
    (hiv : iv.length = IV_BYTES) (htag : tag.length = AUTH_TAG_BYTES) (hne : ciphertext ≠ [])
    (hopen : gcm.decrypt cipher.encryptionKey iv tag [] ciphertext = some plain)
    (hcontext : validateContext context = true) :
    decrypt gcm cipher (legacyText iv tag ciphertext) context = .ok (ofUtf8 plain) := by
  apply decrypt_ok_of_either
  unfold decryptEither
  rw [hcontext, not_isVersioned_legacyText hiv, validate_legacyText hiv htag hne,
    decryptSecret_legacyText hopen]
  rfl

/-- The validator refuses the old envelope of an empty plaintext. -/
theorem decrypt_encrypt_empty {reader : VersionedSecretCipher} {envelope : String}
    (hversion : writer.writeVersion = .legacy) (hiv : entropy.length = IV_BYTES)
    (h : encrypt gcm writer entropy "" context = .ok envelope) :
    decrypt gcm reader envelope context = .error .decryptionFailed := by
  rw [encrypt_legacy hversion] at h
  injection h with h
  have hempty : (gcm.encrypt writer.encryptionKey entropy [] (utf8 "")).1 = [] :=
    List.eq_nil_of_length_eq_zero (gcm.length_encrypt _ _ _ _).1
  have hnone : decryptEither gcm reader envelope context = none := by
    rw [← h, hempty]
    unfold decryptEither
    rw [not_isVersioned_legacyText hiv, not_validate_legacyText_nil]
    cases validateContext context <;> rfl
  unfold decrypt
  rw [hnone]

/-- An envelope is read back under any write version of the reader exactly when it is of the new
format or its plaintext is not empty; all else that is promised always holds. -/
theorem keepsSecrets_iff (hideal : IdealProviders trusted sealings) (hgcm : IdealGcm gcm made)
    {reader : VersionedSecretCipher} (htrusted : ∀ p ∈ reader.providers, trusted p)
    (hsame : writer.activeProvider ∈ reader.providers)
    (hkey : reader.encryptionKey = writer.encryptionKey)
    (hcontext : validateContext context = true)
    (hrecorded : Recorded gcm made sealings writer entropy plaintext context) :
    KeepsSecrets gcm made trusted sealings writer reader entropy plaintext context ↔
      (writer.writeVersion = .v1 ∨ plaintext ≠ "") := by
  have hactive := htrusted _ hsame
  constructor
  · intro h
    by_contra hnot
    rw [not_or, not_not] at hnot
    obtain ⟨hversion, rfl⟩ := hnot
    have hlegacy : writer.writeVersion = .legacy := by
      cases hwrite : writer.writeVersion with
      | legacy => rfl
      | v1 => exact absurd hwrite hversion
    obtain ⟨envelope, henvelope, hread⟩ := h.roundTrip
    unfold Recorded at hrecorded
    rw [hlegacy] at hrecorded
    have hiv : entropy.length = IV_BYTES := hgcm.length_iv hrecorded
    rw [decrypt_encrypt_empty hlegacy hiv henvelope] at hread
    cases hread
  · intro h
    refine ⟨?_, ?_, fun other hother _ _ _ hread => issued_of_decrypt hideal hgcm hother hread,
      fun _ _ _ => oneFormat_decryptV1⟩
    · cases hversion : writer.writeVersion with
      | v1 =>
          obtain ⟨payload, hsealed, hencrypt⟩ :=
            encrypt_v1 hideal hactive hversion hcontext hrecorded
          refine ⟨_, hencrypt, ?_⟩
          have hread := decrypt_v1_ok gcm hideal hactive hsame hsealed hcontext
          rw [ofUtf8_utf8] at hread
          exact hread
      | legacy =>
          have hne : plaintext ≠ "" :=
            h.resolve_left fun hv1 => WriteVersion.noConfusion (hversion.symm.trans hv1)
          unfold Recorded at hrecorded
          rw [hversion] at hrecorded
          refine ⟨_, encrypt_legacy hversion, ?_⟩
          obtain ⟨hciphertext, htag⟩ :=
            gcm.length_encrypt writer.encryptionKey entropy [] (utf8 plaintext)
          have hiv : entropy.length = IV_BYTES := hgcm.length_iv hrecorded
          have hopen : gcm.decrypt writer.encryptionKey entropy
              (gcm.encrypt writer.encryptionKey entropy [] (utf8 plaintext)).2 []
              (gcm.encrypt writer.encryptionKey entropy [] (utf8 plaintext)).1 =
                some (utf8 plaintext) := hgcm.opens hrecorded
          have hcipherNe : (gcm.encrypt writer.encryptionKey entropy [] (utf8 plaintext)).1 ≠ [] := by
            apply List.ne_nil_of_length_pos
            rw [hciphertext]
            exact List.length_pos_iff.mpr (utf8_ne_nil hne)
          rw [← hkey] at hopen htag hcipherNe ⊢
          have hread := decrypt_legacy_ok hiv htag hcipherNe hopen hcontext
          rw [ofUtf8_utf8] at hread
          exact hread
    · intro hversion envelope hencrypt other hother context' text hread
      obtain ⟨payload, hsealed, hok⟩ := encrypt_v1 hideal hactive hversion hcontext hrecorded
      rw [hok] at hencrypt
      injection hencrypt with hencrypt
      rw [← hencrypt] at hread
      obtain ⟨hmem, hcontexts, htext⟩ := decrypt_v1Text hideal hactive hsealed hother hread
      rw [ofUtf8_utf8] at htext
      exact ⟨hmem, hcontexts, htext⟩

end Promises

theorem recorded_v1Sealing (plaintext : String) :
    Recorded (oneSealing (v1Sealing plaintext)) (· = v1Sealing plaintext)
      (EnvSealings (oneSealing (v1Sealing plaintext)) (· = v1Sealing plaintext) zeroHash
        (· = oneKey))
      (oneCipher (oneSealing (v1Sealing plaintext)) .v1) oneIv plaintext totpContext :=
  ⟨_, sealPayload_envAesGcm oneKey oneIv (utf8 plaintext) _, _, rfl, rfl, rfl, rfl⟩

theorem recorded_legacySealing (plaintext : String) :
    Recorded (oneSealing (legacySealing plaintext)) (· = legacySealing plaintext)
      (EnvSealings (oneSealing (legacySealing plaintext)) (· = legacySealing plaintext) zeroHash
        (· = oneKey))
      (oneCipher (oneSealing (legacySealing plaintext)) .legacy) oneIv plaintext totpContext :=
  rfl

/-- A reader of either write version has the secret of a writer of the new one. -/
theorem keepsSecrets_v1 :
    KeepsSecrets (oneSealing (v1Sealing "JBSWY3DP")) (· = v1Sealing "JBSWY3DP")
      (EnvTrusted (oneSealing (v1Sealing "JBSWY3DP")) zeroHash (· = oneKey))
      (EnvSealings (oneSealing (v1Sealing "JBSWY3DP")) (· = v1Sealing "JBSWY3DP") zeroHash
        (· = oneKey))
      (oneCipher (oneSealing (v1Sealing "JBSWY3DP")) .v1)
      (oneCipher (oneSealing (v1Sealing "JBSWY3DP")) .legacy) oneIv "JBSWY3DP" totpContext :=
  have hgcm : IdealGcm (oneSealing (v1Sealing "JBSWY3DP")) (· = v1Sealing "JBSWY3DP") :=
    idealGcm_oneSealing List.length_replicate List.length_replicate rfl
  (keepsSecrets_iff (idealProviders_one hgcm oneKey) hgcm trusted_oneCipher
    (activeProvider_mem _ .v1 .legacy) rfl validateContext_totp
    (recorded_v1Sealing "JBSWY3DP")).mpr (.inl rfl)

/-- The old writer's envelope of the empty plaintext is refused by every reader. -/
theorem not_keepsSecrets : ¬ ∀ (gcm : AesGcm) (made : GcmSealing → Prop)
    (trusted : SecretCryptoProvider → Prop) (sealings : SecretCryptoProvider → Sealing → Prop)
    (writer reader : VersionedSecretCipher) (entropy : List UInt8) (plaintext : String)
    (context : SecretContext), IdealProviders trusted sealings → IdealGcm gcm made →
      (∀ p ∈ reader.providers, trusted p) → writer.activeProvider ∈ reader.providers →
        reader.encryptionKey = writer.encryptionKey → validateContext context = true →
          Recorded gcm made sealings writer entropy plaintext context →
            KeepsSecrets gcm made trusted sealings writer reader entropy plaintext context := by
  intro h
  have hgcm : IdealGcm (oneSealing (legacySealing "")) (· = legacySealing "") :=
    idealGcm_oneSealing List.length_replicate List.length_replicate rfl
  have hempty := h _ _ _ _ _ _ _ _ _ (idealProviders_one hgcm oneKey) hgcm trusted_oneCipher
    (activeProvider_mem _ .legacy .v1) rfl validateContext_totp (recorded_legacySealing "")
  obtain ⟨envelope, hencrypt, hread⟩ := hempty.roundTrip
  rw [decrypt_encrypt_empty rfl List.length_replicate hencrypt] at hread
  cases hread

end Refearn.Secrets
