import Refearn.Hierarchy.References
/-!
# Texts that references are made of

Every part of a reference is a plain text: it stands in JSON and in UTF-8 as it is, so that
lengths add up and decoding gives it back.
-/

namespace Refearn.Hierarchy

open Support

def Plain (text : String) : Prop := ∀ c ∈ text.toList, Json.isPlain c = true

instance (text : String) : Decidable (Plain text) :=
  decidable_of_iff (text.toList.all Json.isPlain = true) List.all_eq_true

def SevenBit (text : String) : Prop := ∀ c ∈ text.toList, c.toNat < 0x80

theorem Plain.sevenBit {text : String} (h : Plain text) : SevenBit text := by
  intro c hc
  have hbounds := Json.isPlain_bounds (h c hc)
  omega

theorem Plain.append {s t : String} (hs : Plain s) (ht : Plain t) : Plain (s ++ t) := by
  intro c hc
  rw [String.toList_append] at hc
  exact (List.mem_append.mp hc).elim (hs c) (ht c)

theorem SevenBit.append {s t : String} (hs : SevenBit s) (ht : SevenBit t) :
    SevenBit (s ++ t) := by
  intro c hc
  rw [String.toList_append] at hc
  exact (List.mem_append.mp hc).elim (hs c) (ht c)

/-! ## Bytes -/

theorem decode_bytesOf (text : String) :
    String.ofList (Utf8.decode (bytesOf text)) = text := by
  unfold bytesOf
  rw [Utf8.decode_encode, String.ofList_toList]

theorem length_bytesOf {text : String} (h : SevenBit text) :
    (bytesOf text).length = text.toList.length :=
  Utf8.length_encode h

theorem toList_base64url (bytes : List UInt8) :
    (base64url bytes).toList = Base64Url.encode bytes :=
  String.toList_ofList

theorem length_base64url (bytes : List UInt8) :
    (base64url bytes).toList.length = (4 * bytes.length + 2) / 3 := by
  rw [toList_base64url, Base64Url.length_encode]

theorem decode_base64url (bytes : List UInt8) :
    Base64Url.decode (base64url bytes).toList = bytes := by
  rw [toList_base64url, Base64Url.decode_encode]

theorem isLetter_base64url {bytes : List UInt8} {c : Char}
    (h : c ∈ (base64url bytes).toList) : Base64Url.isLetter c = true := by
  rw [toList_base64url] at h
  exact Base64Url.isLetter_of_mem_encode h

theorem isBase64url_of_bytes {bytes : List UInt8} (h : bytes ≠ []) :
    isBase64url (base64url bytes).toList = true := by
  have hne : (base64url bytes).toList ≠ [] := by
    intro hnil
    have hdecoded := decode_base64url bytes
    rw [hnil] at hdecoded
    exact h hdecoded.symm
  unfold isBase64url
  rw [Bool.and_eq_true, decide_eq_true_eq, List.all_eq_true]
  exact ⟨hne, fun c hc => isLetter_base64url hc⟩

theorem bytesOf_ne_nil {text : String} (hsmall : SevenBit text) (h : text.toList ≠ []) :
    bytesOf text ≠ [] := by
  intro hnil
  have hlength := length_bytesOf hsmall
  rw [hnil] at hlength
  exact h (List.length_eq_zero_iff.mp hlength.symm)

theorem isPlain_of_isLetter {c : Char} (h : Base64Url.isLetter c = true) :
    Json.isPlain c = true := by
  have hmem : c ∈ Base64Url.alphabet := by simpa [Base64Url.isLetter] using h
  have hall : Base64Url.alphabet.all Json.isPlain = true := by
    rw [Base64Url.alphabet_eq]
    decide
  exact List.all_eq_true.mp hall c hmem

theorem plain_base64url (bytes : List UInt8) : Plain (base64url bytes) :=
  fun _ hc => isPlain_of_isLetter (isLetter_base64url hc)

theorem dot_notMem_base64url (bytes : List UInt8) : '.' ∉ (base64url bytes).toList :=
  fun h => (Base64Url.isLetter_bounds (isLetter_base64url h)).2.2 rfl

/-! ## Patterns -/

/-- Digits of either kind and dashes. -/
def isUuidChar (c : Char) : Bool := isHexDigit c || isDash c

theorem isUuidChar_of_mem {text : String} (h : isUuid text = true) {c : Char}
    (hc : c ∈ text.toList) : isUuidChar c = true := by
  obtain ⟨p, hp, hpc⟩ := exists_of_fits h hc
  have hdigit : ∀ ds : List Char, ds ⊆ "0123456789abcdef".toList → ds.contains c = true →
      isHexDigit c = true := by
    intro ds hsub hmem
    unfold isHexDigit
    rw [List.contains_iff_mem] at hmem ⊢
    exact hsub hmem
  unfold uuidPattern at hp
  simp only [List.mem_append, List.mem_cons, List.mem_replicate] at hp
  unfold isUuidChar
  rw [Bool.or_eq_true]
  rcases hp with hp | rfl | hp | rfl | rfl | hp | rfl | rfl | hp | rfl | hp
  · exact .inl (hp.2 ▸ hpc)
  · exact .inr hpc
  · exact .inl (hp.2 ▸ hpc)
  · exact .inr hpc
  · exact .inl (hdigit _ (by decide) hpc)
  · exact .inl (hp.2 ▸ hpc)
  · exact .inr hpc
  · exact .inl (hdigit _ (by decide) hpc)
  · exact .inl (hp.2 ▸ hpc)
  · exact .inr hpc
  · exact .inl (hp.2 ▸ hpc)

theorem length_of_isUuid {text : String} (h : isUuid text = true) : text.toList.length = 36 :=
  length_of_fits h

theorem isPlain_of_isHexDigit {c : Char} (h : isHexDigit c = true) : Json.isPlain c = true := by
  have hmem : c ∈ "0123456789abcdef".toList := List.contains_iff_mem.mp h
  have hall : "0123456789abcdef".toList.all Json.isPlain = true := by decide
  exact List.all_eq_true.mp hall c hmem

theorem plain_of_isUuid {text : String} (h : isUuid text = true) : Plain text := by
  intro c hc
  have hchar := isUuidChar_of_mem h hc
  unfold isUuidChar at hchar
  rcases Bool.or_eq_true .. |>.mp hchar with hdigit | hdash
  · exact isPlain_of_isHexDigit hdigit
  · unfold isDash at hdash
    rw [decide_eq_true_eq] at hdash
    rw [hdash]
    decide

/-! ## Digests -/

theorem length_hexPairs (bytes : List UInt8) :
    (bytes.flatMap fun b => fixedHex 2 b.toNat).length = 2 * bytes.length := by
  induction bytes with
  | nil => rfl
  | cons b bytes ih =>
      rw [List.flatMap_cons, List.length_append, ih, length_fixedHex, List.length_cons]
      omega

theorem isSha256Hex_sha256 (crypto : NodeCrypto) (value : String) :
    isSha256Hex (sha256 crypto value) = true := by
  have hdigits : ∀ c ∈ ((crypto.hash (bytesOf value)).flatMap fun b => fixedHex 2 b.toNat),
      isHexDigit c = true := by
    intro c hc
    obtain ⟨b, -, hb⟩ := List.mem_flatMap.mp hc
    exact List.contains_iff_mem.mpr (mem_fixedHex hb)
  have hlength := length_hexPairs (crypto.hash (bytesOf value))
  rw [crypto.length_hash] at hlength
  have hfits := fits_replicate hdigits
  rw [hlength] at hfits
  unfold isSha256Hex sha256 hex
  rw [String.toList_ofList]
  exact hfits

theorem plain_of_isSha256Hex {text : String} (h : isSha256Hex text = true) : Plain text := by
  intro c hc
  obtain ⟨p, hp, hpc⟩ := exists_of_fits h hc
  rw [(List.mem_replicate.mp hp).2] at hpc
  exact isPlain_of_isHexDigit hpc

theorem length_of_isSha256Hex {text : String} (h : isSha256Hex text = true) :
    text.toList.length = 64 :=
  length_of_fits h

/-! ## Dates -/

theorem canonicalDate_eq_some_iff {value : String} {t : Int} :
    canonicalDate value = some t ↔
      IsoDate.Representable t ∧ String.ofList (IsoDate.toISOString t) = value := by
  unfold canonicalDate
  rw [IsoDate.canonicalDate_eq_some_iff]
  refine and_congr_right fun _ => ⟨fun h => ?_, fun h => ?_⟩
  · rw [h, String.ofList_toList]
  · rw [← h, String.toList_ofList]

theorem isPlain_of_isDateChar {c : Char} (h : IsoDate.isDateChar c = true) :
    Json.isPlain c = true := by
  have hdigit : c.isDigit = true → Json.isPlain c = true := by
    intro hc
    have hbounds : 48 ≤ c.toNat ∧ c.toNat ≤ 57 := by
      unfold Char.isDigit at hc
      rw [Bool.and_eq_true, decide_eq_true_eq, decide_eq_true_eq] at hc
      exact ⟨UInt32.le_iff_toNat_le.mp hc.1, UInt32.le_iff_toNat_le.mp hc.2⟩
    have hchar : c = Char.ofNat c.toNat := (Char.ofNat_toNat c).symm
    rw [hchar]
    have hall : ∀ n < 58, 48 ≤ n → Json.isPlain (Char.ofNat n) = true := by decide
    exact hall _ (by omega) hbounds.1
  unfold IsoDate.isDateChar at h
  rcases Bool.or_eq_true .. |>.mp h with hc | hc
  · exact hdigit hc
  · have hall : "+-T:.Z".toList.all Json.isPlain = true := by decide
    exact List.all_eq_true.mp hall c (List.contains_iff_mem.mp hc)

theorem plain_of_canonicalDate {value : String} {t : Int} (h : canonicalDate value = some t) :
    Plain value := by
  obtain ⟨-, rfl⟩ := canonicalDate_eq_some_iff.mp h
  intro c hc
  rw [String.toList_ofList] at hc
  exact isPlain_of_isDateChar (IsoDate.isDateChar_of_mem hc)

theorem length_of_canonicalDate {value : String} {t : Int} (h : canonicalDate value = some t) :
    value.toList.length ≤ 27 := by
  obtain ⟨ht, rfl⟩ := canonicalDate_eq_some_iff.mp h
  rw [String.toList_ofList]
  exact IsoDate.length_toISOString_le ht

theorem toISOString_eq {t : Int} (h : IsoDate.Representable t) :
    toISOString t = .ok (String.ofList (IsoDate.toISOString t)) := if_pos h

theorem canonicalDate_toISOString {t : Int} (h : IsoDate.Representable t) :
    canonicalDate (String.ofList (IsoDate.toISOString t)) = some t :=
  canonicalDate_eq_some_iff.mpr ⟨h, rfl⟩

/-! ## Subjects -/

theorem plain_of_validateSubject {subject : String} (h : validateSubject subject = true) :
    Plain subject := by
  unfold validateSubject isBase64url at h
  simp only [Bool.and_eq_true, List.all_eq_true] at h
  exact fun c hc => isPlain_of_isLetter (h.1.2 c hc)

theorem length_of_validateSubject {subject : String} (h : validateSubject subject = true) :
    subject.toList.length ≤ 512 := by
  unfold validateSubject at h
  rw [Bool.and_eq_true, decide_eq_true_eq] at h
  exact h.2

/-! ## Objects of plain texts -/

/-- A value whose text is of seven bits and has at most a length. -/
structure ShortText (x : Json) (n : Nat) : Prop where
  small : ∀ c ∈ Json.chars x, c.toNat < 0x80
  length : (Json.chars x).length ≤ n

theorem quoted_small {s : String} (h : Plain s) : ∀ c ∈ Json.quoted s, c.toNat < 0x80 := by
  intro c hc
  rw [Json.quoted_plain h, List.mem_cons, List.mem_append, List.mem_singleton] at hc
  rcases hc with rfl | hc | rfl
  · decide
  · exact h.sevenBit c hc
  · decide

theorem length_quoted {s : String} (h : Plain s) :
    (Json.quoted s).length = s.toList.length + 2 := by
  rw [Json.quoted_plain h, List.length_cons, List.length_append, List.length_singleton]

theorem shortText_str {s : String} {n : Nat} (h : Plain s) (hn : s.toList.length + 2 ≤ n) :
    ShortText (.str s) n := by
  refine ⟨?_, ?_⟩
  · rw [Json.chars]
    exact quoted_small h
  · rw [Json.chars, length_quoted h]
    exact hn

/-- The text of an object is as long as its names and values, and four signs for each. -/
theorem shortText_obj {ms : List (String × Json × Nat)} (hne : ms ≠ [])
    (h : ∀ m ∈ ms, Plain m.1 ∧ ShortText m.2.1 m.2.2) :
    ShortText (.obj (ms.map fun m => (m.1, m.2.1)))
      (1 + (ms.map fun m => m.1.toList.length + m.2.2 + 4).sum) := by
  refine ⟨?_, ?_⟩
  · intro c hc
    rcases Json.mem_chars_obj hc with hmark | ⟨m, hm, hpart⟩
    · have hall : ['{', '}', ',', ':'].all (fun d => d.toNat < 0x80) = true := by decide
      exact of_decide_eq_true (List.all_eq_true.mp hall c hmark)
    · obtain ⟨m', hm', rfl⟩ := List.mem_map.mp hm
      have hm := h m' hm'
      rcases hpart with hname | hvalue
      · exact quoted_small hm.1 c hname
      · exact hm.2.small c hvalue
  · have hsum : ∀ ms : List (String × Json × Nat),
        (∀ m ∈ ms, Plain m.1 ∧ ShortText m.2.1 m.2.2) →
        ((ms.map fun m => (m.1, m.2.1)).map fun m : String × Json =>
          (Json.quoted m.1).length + (Json.chars m.2).length + 2).sum ≤
          (ms.map fun m => m.1.toList.length + m.2.2 + 4).sum := by
      intro ms h
      induction ms with
      | nil => exact le_rfl
      | cons m ms ih =>
          have hm := h m List.mem_cons_self
          have hrest := ih fun m' hm' => h m' (List.mem_cons_of_mem _ hm')
          have hlength := hm.2.length
          simp only [List.map_cons, List.sum_cons]
          rw [length_quoted hm.1]
          omega
    cases ms with
    | nil => exact absurd rfl hne
    | cons m ms =>
        have htotal := hsum (m :: ms) h
        rw [List.map_cons, Json.length_chars_obj]
        exact Nat.add_le_add_left htotal 1

theorem ShortText.sevenBit {x : Json} {n : Nat} (h : ShortText x n) :
    SevenBit (Json.stringify x) := by
  intro c hc
  unfold Json.stringify at hc
  rw [String.toList_ofList] at hc
  exact h.small c hc

theorem ShortText.length_stringify {x : Json} {n : Nat} (h : ShortText x n) :
    (Json.stringify x).toList.length ≤ n := by
  unfold Json.stringify
  rw [String.toList_ofList]
  exact h.length

theorem stringify_ne_nil (x : Json) : (Json.stringify x).toList ≠ [] := by
  obtain ⟨c, rest, hchars, -⟩ := Json.chars_head x
  unfold Json.stringify
  rw [String.toList_ofList, hchars]
  exact List.cons_ne_nil c rest

end Refearn.Hierarchy
