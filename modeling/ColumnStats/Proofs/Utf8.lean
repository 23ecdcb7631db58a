import ColumnStats.Text.Bytes

/-!
# Bytes of texts

The bytes of a text are those of its characters, one after the other; a byte below 128 stands for
a character of its own and never lies within another one.

* `encode_eq`, `encode_injective`: the bytes of a text, and the one text of its bytes;
* `decode?_eq_some_iff`: decoding undoes encoding, and accepts nothing else;
* `encodeChars_eq_append_cons`: **where the bytes of a text have a byte below 128, the text has the
  character of that byte**;
* `isText_append_cons_iff`: cut at such a byte, bytes are a text exactly when both parts are.
-/

namespace ColumnStats.Text

open String (utf8EncodeChar)

/-! ## Encoding and decoding -/

/-- The bytes of characters. -/
def encodeChars (text : List Char) : List UInt8 := text.flatMap utf8EncodeChar

@[simp] theorem encodeChars_nil : encodeChars [] = [] := rfl

@[simp] theorem encodeChars_cons (c : Char) (text : List Char) :
    encodeChars (c :: text) = utf8EncodeChar c ++ encodeChars text := List.flatMap_cons

@[simp] theorem encodeChars_append (text text' : List Char) :
    encodeChars (text ++ text') = encodeChars text ++ encodeChars text' := List.flatMap_append

theorem encodeChars_eq_nil_iff {text : List Char} : encodeChars text = [] ↔ text = [] := by
  cases text with
  | nil => simp
  | cons c text => simp [String.utf8EncodeChar_ne_nil]

@[simp] theorem encode_ofList (text : List Char) :
    encode (String.ofList text) = encodeChars text := by
  simp [encode, encodeChars, List.utf8Encode]

theorem encode_eq (text : String) : encode text = encodeChars text.toList := by
  rw [← encode_ofList, String.ofList_toList]

theorem encode_eq_iff {bytes : List UInt8} {text : String} :
    encode text = bytes ↔ text.toByteArray = ⟨bytes.toArray⟩ := by
  rw [encode, String.toUTF8_eq_toByteArray, ByteArray.ext_iff]
  constructor
  · rintro rfl
    rfl
  · intro h
    rw [h]

theorem decode?_eq_some_iff {bytes : List UInt8} {text : String} :
    decode? bytes = some text ↔ encode text = bytes := by
  rw [encode_eq_iff]
  unfold decode? String.fromUTF8?
  constructor
  · intro h
    split at h
    · obtain rfl := Option.some.inj h
      rfl
    · simp at h
  · intro h
    have valid : ByteArray.IsValidUTF8 ⟨bytes.toArray⟩ := h ▸ text.isValidUTF8
    rw [dif_pos valid]
    exact congrArg some (String.toByteArray_inj.1 h.symm)

@[simp] theorem decode?_encode (text : String) : decode? (encode text) = some text :=
  decode?_eq_some_iff.2 rfl

theorem encode_injective {text text' : String} (h : encode text = encode text') : text = text' := by
  rw [← Option.some_inj, ← decode?_encode, ← decode?_encode, h]

/-- The bytes are those of a text. -/
def IsText (bytes : List UInt8) : Prop := ∃ text, encode text = bytes

theorem isText_iff {bytes : List UInt8} : IsText bytes ↔ ∃ text, encodeChars text = bytes := by
  constructor
  · rintro ⟨text, rfl⟩
    exact ⟨text.toList, (encode_eq text).symm⟩
  · rintro ⟨text, rfl⟩
    exact ⟨String.ofList text, encode_ofList text⟩

theorem decode?_isSome_iff {bytes : List UInt8} : (decode? bytes).isSome ↔ IsText bytes := by
  simp only [Option.isSome_iff_exists, IsText, decode?_eq_some_iff]

theorem decode?_eq_none_iff {bytes : List UInt8} : decode? bytes = none ↔ ¬ IsText bytes := by
  rw [← decode?_isSome_iff, Option.not_isSome_iff_eq_none]

instance (bytes : List UInt8) : Decidable (IsText bytes) := decidable_of_iff _ decode?_isSome_iff

/-! ## Bytes below 128 -/

theorem utf8EncodeChar_of_mem {c : Char} {byte : UInt8} (h : byte ∈ utf8EncodeChar c)
    (small : byte.toNat < 128) : utf8EncodeChar c = [byte] ∧ c.toNat = byte.toNat := by
  revert h
  fun_cases utf8EncodeChar c with
  | case1 v hv =>
    intro h
    obtain rfl := List.mem_singleton.1 h
    refine ⟨rfl, ?_⟩
    rw [UInt8.toNat_ofNat', Nat.mod_eq_of_lt (by omega)]
    rfl
  | _ =>
    -- all bytes of a longer character are at least 128
    intro h
    simp only [List.mem_cons, List.not_mem_nil, or_false, ← UInt8.toNat_inj,
      UInt8.toNat_ofNat'] at h
    omega

theorem utf8EncodeChar_eq_singleton {c : Char} {byte : UInt8} (h : c.toNat = byte.toNat)
    (small : byte.toNat < 128) : utf8EncodeChar c = [byte] := by
  have hv : c.val.toNat ≤ 0x7f := by
    have : c.val.toNat = c.toNat := rfl
    omega
  rw [utf8EncodeChar, if_pos hv, List.singleton_inj, ← UInt8.toNat_inj, UInt8.toNat_ofNat', ← h]
  exact Nat.mod_eq_of_lt (by omega)

/-- **Where the bytes of a text have a byte below 128, the text has the character of that byte.** -/
theorem encodeChars_eq_append_cons {text : List Char} {before after : List UInt8} {byte : UInt8}
    (small : byte.toNat < 128) (h : encodeChars text = before ++ byte :: after) :
    ∃ text₁ c text₂, text = text₁ ++ c :: text₂ ∧ encodeChars text₁ = before ∧
      c.toNat = byte.toNat ∧ encodeChars text₂ = after := by
  induction text generalizing before with
  | nil => simp at h
  | cons c text ih =>
    rw [encodeChars_cons, List.append_eq_append_iff] at h
    rcases h with ⟨rest, rfl, ht⟩ | ⟨rest, hc, ht⟩
    · obtain ⟨text₁, d, text₂, rfl, rfl, hd, rfl⟩ := ih ht
      exact ⟨c :: text₁, d, text₂, rfl, encodeChars_cons c text₁, hd, rfl⟩
    rcases List.cons_eq_append_iff.1 ht with ⟨rfl, ht⟩ | ⟨tail, rfl, rfl⟩
    · have ht : encodeChars text = [] ++ byte :: after := ht.symm
      obtain ⟨text₁, d, text₂, rfl, hnil, hd, rfl⟩ := ih ht
      exact ⟨c :: text₁, d, text₂, rfl, by simp [hnil, hc], hd, rfl⟩
    · -- the byte lies in the encoding of `c`, so it is all of it
      obtain ⟨hs, hd⟩ := utf8EncodeChar_of_mem (by rw [hc]; simp) small
      obtain ⟨rfl, rfl⟩ : before = [] ∧ tail = [] := by
        have := congrArg List.length (hc.symm.trans hs)
        simp only [List.length_append, List.length_cons, List.length_nil] at this
        constructor <;> apply List.eq_nil_of_length_eq_zero <;> omega
      exact ⟨[], c, text, rfl, rfl, hd, rfl⟩

theorem mem_encodeChars_iff {text : List Char} {c : Char} {byte : UInt8} (h : c.toNat = byte.toNat)
    (small : byte.toNat < 128) : byte ∈ encodeChars text ↔ c ∈ text := by
  rw [encodeChars, List.mem_flatMap]
  constructor
  · rintro ⟨d, hd, hb⟩
    have hcd : d.toNat = c.toNat := (utf8EncodeChar_of_mem hb small).2.trans h.symm
    rwa [← Char.toNat_inj.1 hcd]
  · intro hc
    exact ⟨c, hc, by simp [utf8EncodeChar_eq_singleton h small]⟩

/-- **Cut at a byte below 128, bytes are a text exactly when both parts are.** -/
theorem isText_append_cons_iff {before after : List UInt8} {byte : UInt8}
    (small : byte.toNat < 128) : IsText (before ++ byte :: after) ↔ IsText before ∧ IsText after := by
  simp only [isText_iff]
  constructor
  · rintro ⟨text, h⟩
    obtain ⟨text₁, c, text₂, -, h₁, -, h₂⟩ := encodeChars_eq_append_cons small h
    exact ⟨⟨text₁, h₁⟩, ⟨text₂, h₂⟩⟩
  · rintro ⟨⟨text₁, rfl⟩, ⟨text₂, rfl⟩⟩
    have hc : utf8EncodeChar (Char.ofUInt8 byte) = [byte] :=
      utf8EncodeChar_eq_singleton (UInt8.toNat_toUInt32 byte) small
    exact ⟨text₁ ++ Char.ofUInt8 byte :: text₂, by simp [hc]⟩

theorem isText_nil : IsText [] := ⟨"", rfl⟩

end ColumnStats.Text
