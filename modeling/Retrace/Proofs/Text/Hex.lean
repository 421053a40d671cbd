import Retrace.Proofs.Results
import Retrace.Proofs.Text.Numeral
import Retrace.Proofs.Windows
import Retrace.Text.Hex
/-!
# Retrace — hexadecimal input is decoded exactly

Bytes are written as two digits each, and a text is read as the bytes that it is
written for, the case of its digits aside (`decodeBytes_eq_ok_iff`): so an even
number of digits is what it takes, and what is read can be written back. A
quantity is the number that its digits spell, of which there may be no more than
64 (`decodeWord_eq_ok_iff`). Both readers take the digits in the same pairs, an
odd one behind a zero; so where both apply they read the same texts, as the same
numbers.
-/

namespace Retrace

namespace Text

variable {text : List Char} {bytes : List UInt8} {values : List Nat}

/-! ## Pairs of digits -/

/-- The values of the two digits of each byte. -/
def nibbles (bytes : List UInt8) : List Nat :=
  bytes.flatMap fun byte => [byte.toNat / 16, byte.toNat % 16]

theorem length_nibbles (bytes : List UInt8) : (nibbles bytes).length = 2 * bytes.length := by
  induction bytes with
  | nil => rfl
  | cons byte bytes ih =>
    show (nibbles bytes).length + 2 = 2 * (bytes.length + 1)
    omega

/-- Bytes are written in the digits of their halves. -/
theorem digits_nibbles_iff :
    Digits 16 text (nibbles bytes) ↔ text.map Char.toLower = bytes.flatMap byteDigits := by
  have hbelow : ∀ d ∈ nibbles bytes, d < 16 := by
    intro d hd
    obtain ⟨byte, -, hd⟩ := List.mem_flatMap.1 hd
    have hlt := byte.toNat_lt
    simp only [List.mem_cons, List.not_mem_nil, or_false] at hd
    omega
  have hwritten : (nibbles bytes).map Nat.digitChar = bytes.flatMap byteDigits := by
    rw [nibbles, List.map_flatMap]
    rfl
  exact ⟨fun h => h.written.trans hwritten, fun h => ⟨hbelow, h.trans hwritten.symm⟩⟩

/-- Two digits are the halves of one byte. -/
theorem nibbles_cons {high low : Nat} (hhigh : high < 16) (hlow : low < 16)
    (bytes : List UInt8) :
    nibbles (UInt8.ofNat (16 * high + low) :: bytes) = high :: low :: nibbles bytes := by
  have hvalue : (UInt8.ofNat (16 * high + low)).toNat = 16 * high + low :=
    UInt8.toNat_ofNat_of_lt' (show 16 * high + low < 256 by omega)
  have hquotient : (16 * high + low) / 16 = high := by omega
  have hremainder : (16 * high + low) % 16 = low := by omega
  simp only [nibbles, List.flatMap_cons, hvalue, hquotient, hremainder, List.cons_append,
    List.nil_append]

theorem nibbles_inj {others : List UInt8} (h : nibbles bytes = nibbles others) :
    bytes = others := by
  induction bytes generalizing others with
  | nil =>
    cases others with
    | nil => rfl
    | cons other others => cases h
  | cons byte bytes ih =>
    cases others with
    | nil => cases h
    | cons other others =>
      simp only [nibbles, List.flatMap_cons, List.cons_append, List.nil_append,
        List.cons.injEq] at h
      obtain ⟨hhigh, hlow, hrest⟩ := h
      have hbyte : byte = other := UInt8.toNat_inj.1 (by omega)
      rw [hbyte, ih hrest]

/-- An even number of digits are the halves of bytes, by taking two off at a time. -/
theorem exists_nibbles (values : List Nat) (heven : values.length % 2 = 0)
    (hbelow : ∀ d ∈ values, d < 16) : ∃ bytes, nibbles bytes = values := by
  match values with
  | [] => exact ⟨[], rfl⟩
  | [d] => cases heven
  | high :: low :: rest =>
    have hrest : rest.length % 2 = 0 := by
      rw [List.length_cons, List.length_cons] at heven
      omega
    obtain ⟨bytes, hbytes⟩ := exists_nibbles rest hrest fun d hd => hbelow d (by simp [hd])
    refine ⟨UInt8.ofNat (16 * high + low) :: bytes, ?_⟩
    rw [nibbles_cons (hbelow high (by simp)) (hbelow low (by simp)), hbytes]

/-- The number that bytes spell is the one that their digits spell. -/
theorem ofDigits_nibbles (bytes : List UInt8) :
    Nat.ofDigits 16 (nibbles bytes).reverse = Bytes.toNat bytes := by
  rw [← foldl_eq_ofDigits, Bytes.toNat, nibbles, List.foldl_flatMap]
  congr 1
  funext n byte
  have hbyte := Nat.div_add_mod byte.toNat 16
  simp only [List.foldl_cons, List.foldl_nil]
  omega

/-- Digits are characters of one byte. -/
theorem byteCount_of_hexDigit (h : ∀ c ∈ text, HexDigit c) : byteCount text = text.length := by
  induction text with
  | nil => rfl
  | cons c text ih =>
    have hone : c.utf8Size = 1 := by
      have hlt := (h c List.mem_cons_self).toNat_lt
      exact Char.utf8Size_eq_one_iff.2 (show c.toNat ≤ 127 by omega)
    rw [byteCount, hone, ih fun e he => h e (List.mem_cons_of_mem c he), List.length_cons]
    omega

end Text

namespace HexText

open Text

variable {digits : List Char} {position : Nat}

/-! ## Reading digits -/

theorem digit_eq_ok_iff {c : Char} {d : Nat} :
    digit c position = .ok d ↔ d < 16 ∧ c.toLower = Nat.digitChar d := by
  rw [← digitValue?_eq_some_iff, digit]
  cases digitValue? c with
  | none => exact ⟨nofun, nofun⟩
  | some value =>
    exact ⟨fun h => congrArg some (Except.ok.inj h),
      fun h => congrArg Except.ok (Option.some.inj h)⟩

/-- **Pairs of digits are read as the bytes that they are the digits of.** -/
theorem decodePairs_eq_ok_iff {bytes : List UInt8} :
    decodePairs position digits = .ok bytes ↔ Digits 16 digits (nibbles bytes) := by
  fun_induction decodePairs position digits generalizing bytes with
  | case1 position =>
    rw [digits_nil_iff]
    constructor
    · intro h
      rw [← Except.ok.inj h]
      rfl
    · intro h
      have hnone : bytes = [] := nibbles_inj h
      rw [hnone]
  | case2 position c =>
    constructor
    · intro h
      obtain ⟨-, -, h⟩ := bind_eq_ok_iff.1 h
      cases h
    · intro h
      have hlength := h.length_eq
      rw [length_nibbles, List.length_singleton] at hlength
      omega
  | case3 position high low rest ih =>
    simp only [bind_eq_ok_iff, digit_eq_ok_iff, ih]
    constructor
    · rintro ⟨h, ⟨hhigh, hhighDigit⟩, l, ⟨hlow, hlowDigit⟩, others, hrest, hbytes⟩
      rw [← Except.ok.inj hbytes, nibbles_cons hhigh hlow]
      exact digits_cons_iff.2 ⟨h, _, rfl, hhigh, hhighDigit,
        digits_cons_iff.2 ⟨l, _, rfl, hlow, hlowDigit, hrest⟩⟩
    · intro h
      obtain ⟨d, values, hvalues, hhigh, hhighDigit, h⟩ := digits_cons_iff.1 h
      obtain ⟨e, values, rfl, hlow, hlowDigit, hrest⟩ := digits_cons_iff.1 h
      cases bytes with
      | nil => cases hvalues
      | cons byte others =>
        simp only [nibbles, List.flatMap_cons, List.cons_append, List.nil_append,
          List.cons.injEq] at hvalues
        obtain ⟨hd, he, rfl⟩ := hvalues
        have hbyte : UInt8.ofNat (16 * d + e) = byte := by
          apply UInt8.toNat_inj.1
          rw [UInt8.toNat_ofNat_of_lt' (show 16 * d + e < 256 by omega)]
          omega
        exact ⟨d, ⟨hhigh, hhighDigit⟩, e, ⟨hlow, hlowDigit⟩, others, hrest,
          congrArg (fun byte => Except.ok (byte :: others)) hbyte⟩

theorem decodeBytes_eq_ok_iff {bytes : Bytes} :
    decodeBytes digits = .ok bytes ↔ Digits 16 digits (nibbles (Bytes.toList bytes)) := by
  rw [decodeBytes]
  split
  · rename_i hodd
    refine ⟨nofun, fun h => ?_⟩
    have hlength := h.length_eq
    rw [byteCount_of_hexDigit (h.hexDigit (by decide)), hlength, length_nibbles] at hodd
    omega
  · simp only [map_eq_ok_iff, decodePairs_eq_ok_iff]
    constructor
    · rintro ⟨list, hlist, rfl⟩
      exact hlist
    · intro h
      exact ⟨Bytes.toList bytes, h, Bytes.eq_of_toList rfl⟩

/-- A number of at most 64 digits fits into a word. -/
theorem toNat_ofNat_of_spells {n : Nat} (hlength : digits.length ≤ 64) (h : Spells 16 digits n) :
    (BitVec.ofNat 256 n).toNat = n := by
  rw [BitVec.toNat_ofNat]
  apply Nat.mod_eq_of_lt
  have hbound := h.lt_pow (by decide)
  exact Nat.lt_of_lt_of_le hbound (Nat.pow_le_pow_right (by decide) hlength)

/-- The digits of a quantity, an odd number of them filled up in front. -/
def filled (digits : List Char) : List Char :=
  if byteCount digits % 2 = 1 then '0' :: digits else digits

/-- Filling up changes no number. -/
theorem spells_filled_iff {n : Nat} : Spells 16 (filled digits) n ↔ Spells 16 digits n := by
  rw [filled]
  split
  · exact spells_zero_cons_iff (by decide) (by decide)
  · exact Iff.rfl

theorem length_filled (h : byteCount digits = digits.length) :
    (filled digits).length = digits.length + digits.length % 2 := by
  rw [filled, h]
  split
  · rw [List.length_cons]
    omega
  · omega

/-- **At most 64 digits are read as the number that they spell.** -/
theorem decodeWord_eq_ok_iff {w : Word} :
    decodeWord digits = .ok w ↔ digits.length ≤ 64 ∧ Spells 16 digits w.toNat := by
  constructor
  · intro h
    rw [decodeWord] at h
    split at h
    · cases h
    rename_i hcount
    obtain ⟨bytes, hbytes, rfl⟩ := map_eq_ok_iff.1 h
    have hdigits : Digits 16 (filled digits) (nibbles bytes) := decodePairs_eq_ok_iff.1 hbytes
    have hspells : Spells 16 digits (Bytes.toNat bytes) :=
      spells_filled_iff.1 ⟨_, hdigits, ofDigits_nibbles bytes⟩
    have hbyteCount := byteCount_of_hexDigit (hspells.hexDigit (by decide))
    have hlength : digits.length ≤ 64 := by omega
    have hword : (Word.ofBytes (Bytes.ofList bytes)).toNat = Bytes.toNat bytes :=
      toNat_ofNat_of_spells hlength hspells
    rw [hword]
    exact ⟨hlength, hspells⟩
  · rintro ⟨hlength, hspells⟩
    have hbyteCount := byteCount_of_hexDigit (hspells.hexDigit (by decide))
    obtain ⟨values, hvalues, hvalue⟩ := spells_filled_iff.2 hspells
    have hfilled := hvalues.length_eq
    rw [length_filled hbyteCount] at hfilled
    obtain ⟨bytes, rfl⟩ := exists_nibbles values (by omega) hvalues.below
    have hread : decodePairs 0 (filled digits) = .ok bytes := decodePairs_eq_ok_iff.2 hvalues
    have hword : Word.ofBytes (Bytes.ofList bytes) = w := by
      rw [ofDigits_nibbles] at hvalue
      rw [Word.ofBytes, Bytes.toList_ofList, hvalue, BitVec.ofNat_toNat, BitVec.setWidth_eq]
    rw [decodeWord, if_neg (by omega)]
    exact map_eq_ok_iff.2 ⟨bytes, hread, hword⟩

/-! ## Reading texts -/

variable {text : String}

theorem readBytes_eq_ok_iff {bytes : Bytes} : readBytes text = .ok bytes ↔
    Digits 16 (unmarked (trim text.toList)) (nibbles (Bytes.toList bytes)) := by
  rw [readBytes, mapError_eq_ok_iff, decodeBytes_eq_ok_iff]

/-- What is read as bytes is what they are written as, the case aside. -/
theorem readBytes_eq_ok_iff_bytesHex {bytes : Bytes} : readBytes text = .ok bytes ↔
    (unmarked (trim text.toList)).map Char.toLower = (bytesHex bytes).toList := by
  rw [readBytes_eq_ok_iff, digits_nibbles_iff, toList_bytesHex]

/-- Bytes are read from an even number of digits. -/
theorem exists_readBytes_iff : (∃ bytes, readBytes text = .ok bytes) ↔
    (unmarked (trim text.toList)).length % 2 = 0 ∧
      ∀ c ∈ unmarked (trim text.toList), HexDigit c := by
  simp only [readBytes_eq_ok_iff]
  constructor
  · rintro ⟨bytes, h⟩
    have hlength := h.length_eq
    rw [length_nibbles] at hlength
    exact ⟨by omega, h.hexDigit (by decide)⟩
  · rintro ⟨heven, h⟩
    obtain ⟨values, hvalues⟩ := exists_digits h
    rw [hvalues.length_eq] at heven
    obtain ⟨bytes, rfl⟩ := exists_nibbles values heven hvalues.below
    exact ⟨Bytes.ofList bytes, hvalues⟩

/-- A second marker in lower case is passed over, and without one the digits are read. -/
theorem readWord_eq_ok_iff {w : Word} (h : ¬ ['0', 'x'] <+: unmarked (trim text.toList)) :
    readWord text = .ok w ↔ (unmarked (trim text.toList)).length ≤ 64 ∧
      Spells 16 (unmarked (trim text.toList)) w.toNat := by
  have hsame : withoutMarker (unmarked (trim text.toList)) = unmarked (trim text.toList) := by
    rw [withoutMarker.eq_def]
    split
    · rename_i digits heq
      exact absurd ⟨digits, heq.symm⟩ h
    · rfl
  rw [readWord, mapError_eq_ok_iff, hsame, decodeWord_eq_ok_iff]

/-- A word is read from at most 64 digits. -/
theorem exists_readWord_iff (h : ¬ ['0', 'x'] <+: unmarked (trim text.toList)) :
    (∃ w, readWord text = .ok w) ↔ (unmarked (trim text.toList)).length ≤ 64 ∧
      ∀ c ∈ unmarked (trim text.toList), HexDigit c := by
  simp only [readWord_eq_ok_iff h]
  constructor
  · rintro ⟨w, hlength, hspells⟩
    exact ⟨hlength, hspells.hexDigit (by decide)⟩
  · rintro ⟨hlength, hdigits⟩
    obtain ⟨values, hvalues⟩ := exists_digits hdigits
    have hspells : Spells 16 _ _ := ⟨values, hvalues, rfl⟩
    have hword := toNat_ofNat_of_spells hlength hspells
    exact ⟨_, hlength, hword.symm ▸ hspells⟩

/-- **Where both apply, the word is the number that the bytes spell.** -/
theorem readWord_eq_ok_iff_readBytes {w : Word} (h : ¬ ['0', 'x'] <+: unmarked (trim text.toList))
    (heven : (unmarked (trim text.toList)).length % 2 = 0)
    (hlength : (unmarked (trim text.toList)).length ≤ 64) :
    readWord text = .ok w ↔
      ∃ bytes, readBytes text = .ok bytes ∧ w.toNat = Bytes.toNat (Bytes.toList bytes) := by
  rw [readWord_eq_ok_iff h]
  constructor
  · rintro ⟨-, hspells⟩
    obtain ⟨bytes, hbytes⟩ := exists_readBytes_iff.2 ⟨heven, hspells.hexDigit (by decide)⟩
    have hdigits := readBytes_eq_ok_iff.1 hbytes
    exact ⟨bytes, hbytes, hspells.unique (by decide) ⟨_, hdigits, ofDigits_nibbles _⟩⟩
  · rintro ⟨bytes, hbytes, hw⟩
    have hdigits := readBytes_eq_ok_iff.1 hbytes
    exact ⟨hlength, _, hdigits, hw ▸ ofDigits_nibbles _⟩

/-! ## Reading what was written -/

/-- The markers that may stand in front of digits. -/
def markers : List (List Char) := [[], ['0', 'x'], ['0', 'X']]

/-- Digits are not taken for a marker. -/
theorem unmarked_append {marker digits : List Char} (hmarker : marker ∈ markers)
    (hdigits : ∀ c ∈ digits, HexDigit c) : unmarked (marker ++ digits) = digits := by
  simp only [markers, List.mem_cons, List.not_mem_nil, or_false] at hmarker
  rcases hmarker with rfl | rfl | rfl
  · rw [List.nil_append, unmarked.eq_def]
    split
    · exact absurd (hdigits 'x' (by simp)) (by decide)
    · exact absurd (hdigits 'X' (by simp)) (by decide)
    · rfl
  · rfl
  · rfl

/-- **Bytes are read as they were written**: between blanks, behind a marker or none, in either
case. -/
theorem readBytes_of_bytesHex {bytes : Bytes} {front marker digits back : List Char}
    (hfront : Blank front) (hback : Blank back) (hmarker : marker ∈ markers)
    (hdigits : digits.map Char.toLower = (bytesHex bytes).toList) :
    readBytes (String.ofList (front ++ (marker ++ digits) ++ back)) = .ok bytes := by
  have hread : Digits 16 digits (nibbles (Bytes.toList bytes)) :=
    digits_nibbles_iff.2 (hdigits.trans (toList_bytesHex bytes))
  have hhex := hread.hexDigit (by decide)
  have hbare : Bare (marker ++ digits) := by
    have hmarkers : ∀ marker ∈ markers,
        marker.all (fun c => decide (isBlank c = false)) = true := by decide
    apply bare_of_forall
    intro c hc
    rcases List.mem_append.1 hc with hc | hc
    · exact forall_of_all (hmarkers marker hmarker) c hc
    · exact (hhex c hc).not_blank
  rw [readBytes_eq_ok_iff, String.toList_ofList, trim_padded hfront hback hbare,
    unmarked_append hmarker hhex]
  exact hread

end HexText

open Text in
/-- **Hexadecimal input is decoded exactly.** The digits are what is left of the text without the
blanks around it and one marker. As bytes they are read if there is an even number of them and
nothing else, and written in lower case they are the digits of what is read; bytes are read back
from their digits between any blanks, behind either marker or none, in either case. If no further
marker follows, they are read as a word if there are at most 64, an odd number of them or none
included, and the word is the number that they spell. So wherever an even number of at most 64
characters is left, the two readers take the same texts, and the word is the number that the bytes
spell. -/
theorem hex_decoded_exactly :
    (∀ text : String,
      let digits := HexText.unmarked (trim text.toList)
      ((∃ bytes, HexText.readBytes text = .ok bytes) ↔
        digits.length % 2 = 0 ∧ ∀ c ∈ digits, HexDigit c) ∧
      (∀ bytes, HexText.readBytes text = .ok bytes →
        (bytesHex bytes).toList = digits.map Char.toLower) ∧
      (¬ ['0', 'x'] <+: digits → ¬ ['0', 'X'] <+: digits →
        ((∃ w, HexText.readWord text = .ok w) ↔
          digits.length ≤ 64 ∧ ∀ c ∈ digits, HexDigit c) ∧
        (∀ w, HexText.readWord text = .ok w → Spells 16 digits w.toNat) ∧
        (digits.length % 2 = 0 → digits.length ≤ 64 → ∀ w, HexText.readWord text = .ok w ↔
          ∃ bytes, HexText.readBytes text = .ok bytes ∧
            w.toNat = Bytes.toNat (Bytes.toList bytes)))) ∧
    ∀ (bytes : Bytes) (front marker digits back : List Char), Blank front → Blank back →
      marker ∈ [[], ['0', 'x'], ['0', 'X']] →
      digits.map Char.toLower = (bytesHex bytes).toList →
      HexText.readBytes (String.ofList (front ++ (marker ++ digits) ++ back)) = .ok bytes := by
  refine ⟨fun text => ⟨HexText.exists_readBytes_iff, fun bytes h => ?_, fun hmarker _ => ?_⟩, ?_⟩
  · exact (HexText.readBytes_eq_ok_iff_bytesHex.1 h).symm
  · refine ⟨HexText.exists_readWord_iff hmarker, fun w h => ?_, fun heven hlength w => ?_⟩
    · exact ((HexText.readWord_eq_ok_iff hmarker).1 h).2
    · exact HexText.readWord_eq_ok_iff_readBytes hmarker heven hlength
  · intro bytes front marker digits back hfront hback hmarker hdigits
    exact HexText.readBytes_of_bytesHex hfront hback hmarker hdigits

/-- An odd number of digits is a word and no bytes, and so is none at all, which is zero. Two bytes
between blanks, behind a marker and in both cases are read back, and as a word they are the number
that they spell. -/
theorem hex_decoded_exactly_of_odd :
    let odd := "\t0XfFf "
    let bytes := Bytes.ofList [0x0a, 0xcd]
    let even := String.ofList (['\t'] ++ (['0', 'X'] ++ ['0', 'a', 'C', 'd']) ++ [' ', '\n'])
    let digits (text : String) := HexText.unmarked (Text.trim text.toList)
    (¬ ['0', 'x'] <+: digits odd ∧ ¬ ['0', 'X'] <+: digits odd) ∧
    (∃ w, HexText.readWord odd = .ok w) ∧ (¬ ∃ bytes, HexText.readBytes odd = .ok bytes) ∧
    Text.Blank ['\t'] ∧ Text.Blank [' ', '\n'] ∧
    ['0', 'a', 'C', 'd'].map Char.toLower = (Text.bytesHex bytes).toList ∧
    HexText.readBytes even = .ok bytes ∧
    (digits even).length % 2 = 0 ∧ (digits even).length ≤ 64 ∧
    HexText.readWord even = .ok 0xacd := by
  intro odd bytes even digits
  obtain ⟨htexts, hwritten⟩ := hex_decoded_exactly
  obtain ⟨hoddBytes, -, hoddWord⟩ := htexts odd
  obtain ⟨-, -, hevenWord⟩ := htexts even
  have hlower : ¬ ['0', 'x'] <+: digits odd := by decide +kernel
  have hupper : ¬ ['0', 'X'] <+: digits odd := by decide +kernel
  have hword : ∃ w, HexText.readWord odd = .ok w :=
    (hoddWord hlower hupper).1.2 ⟨by decide +kernel, Text.forall_of_all (by decide +kernel)⟩
  have hbytes : ¬ ∃ bytes, HexText.readBytes odd = .ok bytes := by
    intro h
    exact absurd (hoddBytes.1 h).1 (by decide +kernel)
  have hfront : Text.Blank ['\t'] := by decide
  have hback : Text.Blank [' ', '\n'] := by decide
  have hdigits : ['0', 'a', 'C', 'd'].map Char.toLower = (Text.bytesHex bytes).toList := by
    decide +kernel
  have hread : HexText.readBytes even = .ok bytes :=
    hwritten bytes _ ['0', 'X'] _ _ hfront hback (by decide) hdigits
  have heven : (digits even).length % 2 = 0 := by decide +kernel
  have hlength : (digits even).length ≤ 64 := by decide +kernel
  obtain ⟨-, -, hboth⟩ := hevenWord (by decide +kernel) (by decide +kernel)
  exact ⟨⟨hlower, hupper⟩, hword, hbytes, hfront, hback, hdigits, hread, heven, hlength,
    (hboth heven hlength _).2 ⟨bytes, hread, by decide +kernel⟩⟩

end Retrace
