import PathScript.Import
import PathScript.Proofs.Lexemes

/-!
# Bytes That Spell a Text

A program may be handed over as a text or as the bytes that spell it, and it runs
the same.

The two are not read the same way. A text is cut into lines at its line feeds.
Bytes are cut at the byte ten, before anything is known of what they spell, and
each line is decoded by itself when it is reached. For the lines to be those of
the text, the byte ten has to stand for a line feed wherever it occurs. Under
Latin-1 and ASCII a byte is a character, so this is plain. Under UTF-8 it is
because every byte of a longer sequence is at least 128, the first as well as
those that continue it. And decoding has to undo encoding, for every character
there is; in UTF-8 the ranges that a second byte is confined to are just those
that its first byte leaves for the characters of that length.

Once the lines are known to be equal, a machine at the beginning of the one source
is a machine at the beginning of the other, and there is nothing left to compare.

## Main definitions

* `Codec.covers`: The characters that a codec has.
* `Codec.spelling`: The bytes of a character.

## Theorems

* `splitLines_flatMap`: Lines of what is spelled are spelled lines.
* `Utf8.encodeChar_eq`: The bytes of a character are those of the standard.
* `Utf8.decode_encodeChar`: Decoding undoes encoding, character by character.
* `Codec.toNat_spelling`: Where a byte is a character, the bytes are the code points.
* `Codec.decode_spelling`: Decoding undoes encoding.
* `Tokenizer.ofBytes_eq_ofText`: Bytes and text are read as the same lines.
* `bytes_and_text_agree`: Imports of bytes and of text come to the same.
-/

namespace PathScript

section

variable {α β : Type}

/-- A line up to the first end mark, and the lines after it. -/
theorem splitLines_of_mark {isEnd : α → Bool} {line : List α} (hline : ∀ a ∈ line, isEnd a = false)
    {mark : α} (hmark : isEnd mark = true) (rest : List α) :
    splitLines isEnd (line ++ mark :: rest) = (line ++ [mark]) :: splitLines isEnd rest := by
  have hfirst : ∀ a ∈ line, (!isEnd a) = true := by
    intro a ha
    simp [hline a ha]
  have hrest : ∀ a ∈ (mark :: rest).head?, (!isEnd a) = false := by
    intro a ha
    simp only [List.head?_cons, Option.mem_some_iff] at ha
    simp [← ha, hmark]
  rw [splitLines]
  split
  · next h =>
      rw [dropWhile_append_of_head hfirst hrest] at h
      cases h
  · next m r h =>
      rw [dropWhile_append_of_head hfirst hrest, List.cons.injEq] at h
      rw [takeWhile_append_of_head hfirst hrest, h.1, h.2]

/-- What has no end mark is one line, unless there is nothing. -/
theorem splitLines_of_no_mark {isEnd : α → Bool} {line : List α}
    (hline : ∀ a ∈ line, isEnd a = false) :
    splitLines isEnd line = if line.isEmpty then [] else [line] := by
  have hfirst : ∀ a ∈ line, (!isEnd a) = true := by
    intro a ha
    simp [hline a ha]
  have hdrop : (line ++ []).dropWhile (!isEnd ·) = [] :=
    dropWhile_append_of_head hfirst (by simp)
  rw [List.append_nil] at hdrop
  rw [splitLines]
  split
  · rfl
  · next h =>
      rw [hdrop] at h
      cases h

/-- If each item is spelled by one or more others, an end mark by an end mark and all
    else without one, then the lines of what is spelled are the lines spelled. -/
theorem splitLines_flatMap {isEnd : α → Bool} {isEnd' : β → Bool} {spell : α → List β}
    {items : List α} (hne : ∀ a ∈ items, spell a ≠ [])
    (hmark : ∀ a ∈ items, isEnd a = true → ∃ b, spell a = [b] ∧ isEnd' b = true)
    (hother : ∀ a ∈ items, isEnd a = false → ∀ b ∈ spell a, isEnd' b = false) :
    splitLines isEnd' (items.flatMap spell) = (splitLines isEnd items).map (·.flatMap spell) := by
  -- Items before an end mark are spelled without one.
  have hline : ∀ line : List α, (∀ a ∈ line, a ∈ items) → (∀ a ∈ line, isEnd a = false) →
      ∀ b ∈ line.flatMap spell, isEnd' b = false := by
    intro line hitems hplain b hb
    rcases List.mem_flatMap.mp hb with ⟨a, ha, hb⟩
    exact hother a (hitems a ha) (hplain a ha) b hb
  fun_induction splitLines isEnd items with
  | case1 items h hempty =>
      rw [List.isEmpty_iff.mp hempty]
      exact splitLines_of_no_mark (List.forall_mem_nil _)
  | case2 items h hempty =>
      have hall := takeWhile_of_dropWhile_nil h
      have hplain : ∀ a ∈ items, isEnd a = false := by
        intro a ha
        rw [← hall] at ha
        simpa using List.all_eq_true.mp List.all_takeWhile a ha
      rw [splitLines_of_no_mark (hline items (fun _ ha => ha) hplain)]
      -- A line with an item in it is spelled by something.
      cases items with
      | nil => exact absurd rfl hempty
      | cons a rest =>
          have hspell := hne a List.mem_cons_self
          simp [hspell]
  | case3 items mark rest h ih =>
      have hsplit : items = items.takeWhile (!isEnd ·) ++ mark :: rest := by
        rw [← h, List.takeWhile_append_dropWhile]
      have hends : isEnd mark = true := by simpa using eq_false_of_dropWhile_cons h
      have hsub : ∀ a ∈ rest, a ∈ items := by
        intro a ha
        rw [hsplit]
        exact List.mem_append_right _ (List.mem_cons_of_mem _ ha)
      have hmem : mark ∈ items := by
        rw [hsplit]
        exact List.mem_append_right _ List.mem_cons_self
      have hplain : ∀ a ∈ items.takeWhile (!isEnd ·), isEnd a = false := by
        intro a ha
        simpa using List.all_eq_true.mp List.all_takeWhile a ha
      rcases hmark mark hmem hends with ⟨b, hb, hend⟩
      have hfirst := hline _ (fun a ha => List.takeWhile_subset _ ha) hplain
      have hrest := ih (fun a ha => hne a (hsub a ha)) (fun a ha => hmark a (hsub a ha))
        (fun a ha => hother a (hsub a ha)) (fun line hitems => hline line fun a ha =>
          hsub a (hitems a ha))
      rw [List.map_cons, ← hrest]
      conv => lhs; rw [hsplit]
      rw [List.flatMap_append, List.flatMap_cons, hb, List.singleton_append,
        splitLines_of_mark hfirst hend, List.flatMap_append, List.flatMap_cons, hb,
        List.flatMap_nil, List.append_nil]

end

namespace Utf8

/-- A number below 256 as a byte. -/
theorem toNat_ofNat {n : Nat} (h : n < 256) : (UInt8.ofNat n).toNat = n := by
  rw [UInt8.toNat_ofNat']
  omega

theorem isContinuation_iff {byte : UInt8} :
    isContinuation byte = true ↔ 0x80 ≤ byte.toNat ∧ byte.toNat < 0xC0 := by
  simp [isContinuation, UInt8.le_iff_toNat_le, UInt8.lt_iff_toNat_lt]

/-- The bytes that continue a sequence do. -/
theorem isContinuation_continuing (n : Nat) :
    isContinuation (UInt8.ofNat (0x80 + n % 64)) = true := by
  rw [isContinuation_iff, toNat_ofNat (by omega)]
  omega

theorem payload_continuing (n : Nat) : payload (UInt8.ofNat (0x80 + n % 64)) = n % 64 := by
  rw [payload, toNat_ofNat (by omega)]
  omega

/-- A byte that is not below another. -/
theorem not_lt_of_toNat_le {byte bound : UInt8} (h : bound.toNat ≤ byte.toNat) : ¬ byte < bound :=
  UInt8.not_lt.mpr (UInt8.le_iff_toNat_le.mpr h)

/-- The first bytes of sequences that are longer than one. -/
theorem isStart_of_toNat {lead : UInt8} (hlow : 0xC2 ≤ lead.toNat) (hhigh : lead.toNat ≤ 0xF4) :
    (decide (lead < 0xC2) || decide (0xF4 < lead)) = false := by
  simp only [UInt8.lt_iff_toNat_lt, UInt8.reduceToNat, Bool.or_eq_false_iff,
    decide_eq_false_iff_not]
  omega

section

variable (position : Nat) (rest : List UInt8)

theorem decode_one {lead : UInt8} (h : lead.toNat < 0x80) :
    decode position (lead :: rest)
      = (decode (position + 1) rest).map (Char.ofNat lead.toNat :: ·) := by
  have hlead : lead < 0x80 := UInt8.lt_iff_toNat_lt.mpr h
  rw [decode.eq_def]
  simp only [if_pos hlead]

theorem decode_two {lead second : UInt8} (hlow : 0xC2 ≤ lead.toNat) (hhigh : lead.toNat < 0xE0)
    (hsecond : isContinuation second = true) :
    decode position (lead :: second :: rest)
      = (decode (position + 2) rest).map
          (Char.ofNat (lead.toNat % 32 * 64 + payload second) :: ·) := by
  have hascii : ¬ lead < 0x80 := not_lt_of_toNat_le (show 0x80 ≤ lead.toNat by omega)
  have hstart := isStart_of_toNat hlow (by omega)
  have htwo : lead < 0xE0 := UInt8.lt_iff_toNat_lt.mpr hhigh
  rw [decode.eq_def]
  simp only [if_neg hascii, hstart, Bool.false_eq_true, if_false, if_pos htwo, hsecond, if_true]

theorem decode_three {lead second third : UInt8} (hlow : 0xE0 ≤ lead.toNat)
    (hhigh : lead.toNat < 0xF0) (hsecond : canFollowThree lead second = true)
    (hthird : isContinuation third = true) :
    decode position (lead :: second :: third :: rest)
      = (decode (position + 3) rest).map
          (Char.ofNat ((lead.toNat % 16 * 64 + payload second) * 64 + payload third) :: ·) := by
  have hascii : ¬ lead < 0x80 := not_lt_of_toNat_le (show 0x80 ≤ lead.toNat by omega)
  have hstart := isStart_of_toNat (show 0xC2 ≤ lead.toNat by omega) (by omega)
  have htwo : ¬ lead < 0xE0 := not_lt_of_toNat_le hlow
  have hthree : lead < 0xF0 := UInt8.lt_iff_toNat_lt.mpr hhigh
  rw [decode.eq_def]
  simp only [if_neg hascii, hstart, Bool.false_eq_true, if_false, if_neg htwo, if_pos hthree,
    hsecond, Bool.not_true, hthird, if_true]

theorem decode_four {lead second third fourth : UInt8} (hlow : 0xF0 ≤ lead.toNat)
    (hhigh : lead.toNat ≤ 0xF4) (hsecond : canFollowFour lead second = true)
    (hthird : isContinuation third = true) (hfourth : isContinuation fourth = true) :
    decode position (lead :: second :: third :: fourth :: rest)
      = (decode (position + 4) rest).map
          (Char.ofNat (((lead.toNat % 8 * 64 + payload second) * 64 + payload third) * 64
            + payload fourth) :: ·) := by
  have hascii : ¬ lead < 0x80 := not_lt_of_toNat_le (show 0x80 ≤ lead.toNat by omega)
  have hstart := isStart_of_toNat (show 0xC2 ≤ lead.toNat by omega) hhigh
  have htwo : ¬ lead < 0xE0 := not_lt_of_toNat_le (show 0xE0 ≤ lead.toNat by omega)
  have hthree : ¬ lead < 0xF0 := not_lt_of_toNat_le hlow
  rw [decode.eq_def]
  simp only [if_neg hascii, hstart, Bool.false_eq_true, if_false, if_neg htwo, if_neg hthree,
    hsecond, Bool.not_true, hthird, hfourth, if_true]

end

/-- The second byte of a character that takes three: one that takes fewer bytes does not
    come here, and neither does a surrogate, which is no character. -/
theorem canFollowThree_of_code {code : Nat} (hlow : 0x800 ≤ code) (hhigh : code < 0x10000)
    (hvalid : code < 0xD800 ∨ 0xDFFF < code) :
    canFollowThree (UInt8.ofNat (0xE0 + code / 4096)) (UInt8.ofNat (0x80 + code / 64 % 64))
      = true := by
  have hlead := toNat_ofNat (n := 0xE0 + code / 4096) (by omega)
  have hsecond := toNat_ofNat (n := 0x80 + code / 64 % 64) (by omega)
  simp only [canFollowThree, isContinuation_continuing, Bool.true_and, beq_iff_eq,
    ← UInt8.toNat_inj, hlead, UInt8.reduceToNat]
  split
  · simp only [decide_eq_true_eq, UInt8.le_iff_toNat_le, hsecond, UInt8.reduceToNat]
    omega
  · split
    · simp only [decide_eq_true_eq, UInt8.lt_iff_toNat_lt, hsecond, UInt8.reduceToNat]
      omega
    · rfl

/-- The second byte of a character that takes four. -/
theorem canFollowFour_of_code {code : Nat} (hlow : 0x10000 ≤ code) (hhigh : code < 0x110000) :
    canFollowFour (UInt8.ofNat (0xF0 + code / 262144)) (UInt8.ofNat (0x80 + code / 4096 % 64))
      = true := by
  have hlead := toNat_ofNat (n := 0xF0 + code / 262144) (by omega)
  have hsecond := toNat_ofNat (n := 0x80 + code / 4096 % 64) (by omega)
  simp only [canFollowFour, isContinuation_continuing, Bool.true_and, beq_iff_eq,
    ← UInt8.toNat_inj, hlead, UInt8.reduceToNat]
  split
  · simp only [decide_eq_true_eq, UInt8.le_iff_toNat_le, hsecond, UInt8.reduceToNat]
    omega
  · split
    · simp only [decide_eq_true_eq, UInt8.lt_iff_toNat_lt, hsecond, UInt8.reduceToNat]
      omega
    · rfl

/-- The code points that characters have: all but the surrogates, up to the last. -/
theorem code_cases (c : Char) :
    c.toNat < 0x110000 ∧ (c.toNat < 0xD800 ∨ 0xDFFF < c.toNat) := by
  rcases c.valid with h | ⟨hlow, hhigh⟩
  · change c.toNat < 0xD800 at h
    omega
  · change 0xDFFF < c.toNat at hlow
    change c.toNat < 0x110000 at hhigh
    omega

/-- Decoding undoes encoding, character by character. -/
theorem decode_encodeChar (position : Nat) (c : Char) (rest : List UInt8) :
    decode position (encodeChar c ++ rest)
      = (decode (position + (encodeChar c).length) rest).map (c :: ·) := by
  rcases code_cases c with ⟨hlast, hsurrogate⟩
  have hc : Char.ofNat c.toNat = c := Char.ofNat_toNat c
  -- One case for each number of bytes. The first byte holds what the others leave over.
  unfold encodeChar
  dsimp only
  by_cases hone : c.toNat < 0x80
  · have hlead := toNat_ofNat (n := c.toNat) (by omega)
    rw [if_pos hone, List.singleton_append, decode_one _ _ (by omega), hlead, hc]
    rfl
  · by_cases htwo : c.toNat < 0x800
    · have hlead := toNat_ofNat (n := 0xC0 + c.toNat / 64) (by omega)
      have hcode : (0xC0 + c.toNat / 64) % 32 * 64 + c.toNat % 64 = c.toNat := by omega
      rw [if_neg hone, if_pos htwo, List.cons_append, List.singleton_append,
        decode_two _ _ (by omega) (by omega) (isContinuation_continuing _), hlead,
        payload_continuing, hcode, hc]
      rfl
    · by_cases hthree : c.toNat < 0x10000
      · have hlead := toNat_ofNat (n := 0xE0 + c.toNat / 4096) (by omega)
        have hcode : ((0xE0 + c.toNat / 4096) % 16 * 64 + c.toNat / 64 % 64) * 64 + c.toNat % 64
            = c.toNat := by omega
        rw [if_neg hone, if_neg htwo, if_pos hthree, List.cons_append, List.cons_append,
          List.singleton_append, decode_three _ _ (by omega) (by omega)
          (canFollowThree_of_code (by omega) hthree hsurrogate) (isContinuation_continuing _),
          hlead, payload_continuing, payload_continuing, hcode, hc]
        rfl
      · have hlead := toNat_ofNat (n := 0xF0 + c.toNat / 262144) (by omega)
        have hcode : (((0xF0 + c.toNat / 262144) % 8 * 64 + c.toNat / 4096 % 64) * 64
            + c.toNat / 64 % 64) * 64 + c.toNat % 64 = c.toNat := by omega
        rw [if_neg hone, if_neg htwo, if_neg hthree, List.cons_append, List.cons_append,
          List.cons_append, List.singleton_append, decode_four _ _ (by omega) (by omega)
          (canFollowFour_of_code (by omega) hlast) (isContinuation_continuing _)
          (isContinuation_continuing _), hlead, payload_continuing, payload_continuing,
          payload_continuing, hcode, hc]
        rfl

/-- The bytes of a character are those of the standard. -/
theorem encodeChar_eq (c : Char) : encodeChar c = String.utf8EncodeChar c := by
  rcases code_cases c with ⟨hlast, _⟩
  have hval : c.val.toNat = c.toNat := rfl
  unfold encodeChar String.utf8EncodeChar
  dsimp only
  rw [hval]
  by_cases hone : c.toNat < 0x80
  · rw [if_pos hone, if_pos (by omega)]
  · by_cases htwo : c.toNat < 0x800
    · have hlead : 0xC0 + c.toNat / 64 = c.toNat / 64 % 32 + 192 := by omega
      rw [if_neg hone, if_pos htwo, if_neg (by omega), if_pos (by omega), hlead, Nat.add_comm 0x80]
    · by_cases hthree : c.toNat < 0x10000
      · have hlead : 0xE0 + c.toNat / 4096 = c.toNat / 4096 % 16 + 224 := by omega
        rw [if_neg hone, if_neg htwo, if_pos hthree, if_neg (by omega), if_neg (by omega),
          if_pos (by omega), hlead, Nat.add_comm 0x80, Nat.add_comm 0x80]
      · have hlead : 0xF0 + c.toNat / 262144 = c.toNat / 262144 % 8 + 240 := by omega
        rw [if_neg hone, if_neg htwo, if_neg hthree, if_neg (by omega), if_neg (by omega),
          if_neg (by omega), hlead, Nat.add_comm 0x80, Nat.add_comm 0x80, Nat.add_comm 0x80]

/-- Every byte of a longer sequence is at least 128. -/
theorem le_of_mem_encodeChar {c : Char} (h : 0x80 ≤ c.toNat) {byte : UInt8}
    (hbyte : byte ∈ encodeChar c) : 0x80 ≤ byte.toNat := by
  rcases code_cases c with ⟨hlast, _⟩
  have hcontinuing : ∀ n, 0x80 ≤ (UInt8.ofNat (0x80 + n % 64)).toNat := fun n =>
    (isContinuation_iff.mp (isContinuation_continuing n)).1
  unfold encodeChar at hbyte
  dsimp only at hbyte
  rw [if_neg (by omega)] at hbyte
  split at hbyte
  · have hlead := toNat_ofNat (n := 0xC0 + c.toNat / 64) (by omega)
    simp only [List.mem_cons, List.not_mem_nil, or_false] at hbyte
    rcases hbyte with rfl | rfl
    · omega
    · exact hcontinuing _
  · split at hbyte
    · have hlead := toNat_ofNat (n := 0xE0 + c.toNat / 4096) (by omega)
      simp only [List.mem_cons, List.not_mem_nil, or_false] at hbyte
      rcases hbyte with rfl | rfl | rfl
      · omega
      · exact hcontinuing _
      · exact hcontinuing _
    · have hlead := toNat_ofNat (n := 0xF0 + c.toNat / 262144) (by omega)
      simp only [List.mem_cons, List.not_mem_nil, or_false] at hbyte
      rcases hbyte with rfl | rfl | rfl | rfl
      · omega
      · exact hcontinuing _
      · exact hcontinuing _
      · exact hcontinuing _

/-- A character below 128 is one byte. -/
theorem encodeChar_of_lt {c : Char} (h : c.toNat < 0x80) :
    encodeChar c = [UInt8.ofNat c.toNat] := by
  simp only [encodeChar, if_pos h]

theorem encodeChar_ne_nil (c : Char) : encodeChar c ≠ [] := by
  unfold encodeChar
  dsimp only
  split
  · exact List.cons_ne_nil _ _
  · split
    · exact List.cons_ne_nil _ _
    · split <;> exact List.cons_ne_nil _ _

theorem decode_flatMap_encodeChar (position : Nat) (text : List Char) :
    decode position (text.flatMap encodeChar) = .ok text := by
  induction text generalizing position with
  | nil => rfl
  | cons c text ih =>
      rw [List.flatMap_cons, decode_encodeChar, ih]
      rfl

end Utf8

namespace Codec

/-- Whether a codec has a character. -/
def covers : Codec → Char → Bool
  | .latin1, c => c.toNat < 0x100
  | .ascii, c => c.toNat < 0x80
  | .utf8, _ => true
  | .utf8Signature, _ => true

/-- The bytes of a character that a codec has. -/
def spelling : Codec → Char → List UInt8
  | .latin1, c => [UInt8.ofNat c.toNat]
  | .ascii, c => [UInt8.ofNat c.toNat]
  | .utf8, c => Utf8.encodeChar c
  | .utf8Signature, c => Utf8.encodeChar c

variable {codec : Codec} {text : List Char}

/-- A text of characters that a codec has is spelled character by character. -/
theorem encode?_eq_some (hcodec : codec ≠ .utf8Signature)
    (hcovers : ∀ c ∈ text, codec.covers c = true) :
    codec.encode? text = some (text.flatMap codec.spelling) := by
  cases codec with
  | latin1 =>
      have hall : text.all (·.toNat < 0x100) = true := List.all_eq_true.mpr hcovers
      simp only [encode?, hall, if_true, List.map_eq_flatMap]
      rfl
  | ascii =>
      have hall : text.all (·.toNat < 0x80) = true := List.all_eq_true.mpr hcovers
      simp only [encode?, hall, if_true, List.map_eq_flatMap]
      rfl
  | utf8 => rfl
  | utf8Signature => exact absurd rfl hcodec

/-- A byte that is a character by itself. -/
theorem ofNat_spelling {c : Char} (h : c.toNat < 0x100) :
    Char.ofNat (UInt8.ofNat c.toNat).toNat = c := by
  rw [Utf8.toNat_ofNat h, Char.ofNat_toNat]

/-- Where a byte is a character, the bytes of a text are its code points. -/
theorem toNat_spelling (hcodec : codec = .latin1 ∨ codec = .ascii)
    (hcovers : ∀ c ∈ text, codec.covers c = true) :
    (text.flatMap codec.spelling).map UInt8.toNat = text.map Char.toNat := by
  have hbyte : ∀ c, codec.covers c = true →
      codec.spelling c = [UInt8.ofNat c.toNat] ∧ c.toNat < 0x100 := by
    intro c hc
    rcases hcodec with rfl | rfl
    · exact ⟨rfl, of_decide_eq_true hc⟩
    · have hlow : c.toNat < 0x80 := of_decide_eq_true hc
      exact ⟨rfl, by omega⟩
  induction text with
  | nil => rfl
  | cons c text ih =>
      rcases List.forall_mem_cons.mp hcovers with ⟨hc, hrest⟩
      rcases hbyte c hc with ⟨hspelling, hlow⟩
      rw [List.flatMap_cons, hspelling, List.singleton_append, List.map_cons, ih hrest,
        Utf8.toNat_ofNat hlow, List.map_cons]

theorem decodeAscii_spelling (position : Nat) (htext : ∀ c ∈ text, c.toNat < 0x80) :
    decodeAscii position (text.flatMap (spelling .ascii)) = .ok text := by
  induction text generalizing position with
  | nil => rfl
  | cons c text ih =>
      rcases List.forall_mem_cons.mp htext with ⟨hc, hrest⟩
      have hbyte : UInt8.ofNat c.toNat < 0x80 := by
        rw [UInt8.lt_iff_toNat_lt, Utf8.toNat_ofNat (by omega)]
        exact hc
      rw [List.flatMap_cons, spelling, List.singleton_append, decodeAscii, if_pos hbyte,
        ih (position + 1) hrest, ofNat_spelling (by omega)]
      rfl

/-- Decoding undoes encoding. -/
theorem decode_spelling (hcodec : codec ≠ .utf8Signature)
    (hcovers : ∀ c ∈ text, codec.covers c = true) :
    codec.decode (text.flatMap codec.spelling) = .ok text := by
  cases codec with
  | latin1 =>
      have htext : ∀ c ∈ text, c.toNat < 0x100 := fun c hc => of_decide_eq_true (hcovers c hc)
      have hback : text.map (fun c => Char.ofNat (UInt8.ofNat c.toNat).toNat) = text.map id :=
        List.map_congr_left fun c hc => ofNat_spelling (htext c hc)
      have hflat : text.flatMap (spelling .latin1) = text.map fun c => UInt8.ofNat c.toNat :=
        (List.map_eq_flatMap).symm
      rw [decode, hflat, List.map_map]
      exact congrArg Except.ok (hback.trans (List.map_id text))
  | ascii => exact decodeAscii_spelling 0 fun c hc => of_decide_eq_true (hcovers c hc)
  | utf8 => exact Utf8.decode_flatMap_encodeChar 0 text
  | utf8Signature => exact absurd rfl hcodec

/-- A character below 128 is spelled by one byte. -/
theorem spelling_of_lt (codec : Codec) {c : Char} (h : c.toNat < 0x80) :
    codec.spelling c = [UInt8.ofNat c.toNat] := by
  cases codec with
  | latin1 => rfl
  | ascii => rfl
  | utf8 => exact Utf8.encodeChar_of_lt h
  | utf8Signature => exact Utf8.encodeChar_of_lt h

/-- All others are spelled by bytes that are no less than 128. -/
theorem le_of_mem_spelling {c : Char} (hcovers : codec.covers c = true) (h : 0x80 ≤ c.toNat)
    {byte : UInt8} (hbyte : byte ∈ codec.spelling c) : 0x80 ≤ byte.toNat := by
  cases codec with
  | latin1 =>
      have hlow : c.toNat < 0x100 := of_decide_eq_true hcovers
      rw [List.mem_singleton.mp hbyte, Utf8.toNat_ofNat hlow]
      exact h
  | ascii =>
      have hlow : c.toNat < 0x80 := of_decide_eq_true hcovers
      omega
  | utf8 => exact Utf8.le_of_mem_encodeChar h hbyte
  | utf8Signature => exact Utf8.le_of_mem_encodeChar h hbyte

theorem spelling_ne_nil (codec : Codec) (c : Char) : codec.spelling c ≠ [] := by
  cases codec with
  | latin1 => exact List.cons_ne_nil _ _
  | ascii => exact List.cons_ne_nil _ _
  | utf8 => exact Utf8.encodeChar_ne_nil c
  | utf8Signature => exact Utf8.encodeChar_ne_nil c

/-- The byte ten spells a line feed and is in the spelling of nothing else. -/
theorem ten_mem_spelling_iff {c : Char} (hcovers : codec.covers c = true) :
    10 ∈ codec.spelling c ↔ c = '\n' := by
  constructor
  · intro hten
    by_cases hlow : c.toNat < 0x80
    · rw [codec.spelling_of_lt hlow, List.mem_singleton] at hten
      have hcode := congrArg UInt8.toNat hten
      rw [Utf8.toNat_ofNat (by omega)] at hcode
      rw [← Char.ofNat_toNat c, ← hcode]
      rfl
    · have hhigh := le_of_mem_spelling hcovers (by omega) hten
      exact absurd hhigh (by decide)
  · rintro rfl
    rw [codec.spelling_of_lt (by decide)]
    decide

theorem find_of_named {name : String} (hnull : name.toList.contains '\x00' = false)
    (hnamed : named? name = some codec) : Codec.find name = .ok codec := by
  rw [find, hnull, hnamed]
  rfl

/-- The name that a codec goes by in messages is one that it is found by. -/
theorem find_label (hcodec : codec ≠ .utf8Signature) : Codec.find codec.label = .ok codec := by
  cases codec with
  | latin1 => exact find_of_named (by decide) (by decide +kernel)
  | ascii => exact find_of_named (by decide) (by decide +kernel)
  | utf8 => exact find_of_named (by decide) (by decide +kernel)
  | utf8Signature => exact absurd rfl hcodec

/-- The bytes of a text under UTF-8 are those that it has as a string. -/
theorem encode?_utf8 (text : String) :
    Codec.utf8.encode? text.toList = some text.toUTF8.data.toList := by
  have hbytes : text.toUTF8 = (text.toList.flatMap String.utf8EncodeChar).toByteArray := by
    have hlist := String.toByteArray_ofList (l := text.toList)
    rw [String.ofList_toList] at hlist
    exact hlist
  have hchars : Utf8.encodeChar = String.utf8EncodeChar := funext Utf8.encodeChar_eq
  rw [hbytes, encode?, hchars]
  simp

end Codec

/-- Bytes that spell a text are read as the lines of the text. -/
theorem Tokenizer.ofBytes_eq_ofText {codec : Codec} (hcodec : codec ≠ .utf8Signature)
    {name : String} (hname : Codec.find name = .ok codec) {text : String}
    (hcovers : ∀ c ∈ text.toList, codec.covers c = true) :
    Tokenizer.ofBytes name (text.toList.flatMap codec.spelling) = Tokenizer.ofText text := by
  have hlines : splitLines (· == 10) (text.toList.flatMap codec.spelling)
      = (splitLines (· == '\n') text.toList).map (·.flatMap codec.spelling) := by
    refine splitLines_flatMap (fun c _ => codec.spelling_ne_nil c) ?_ ?_
    · intro c hc hend
      rw [beq_iff_eq] at hend
      rw [hend]
      exact ⟨10, codec.spelling_of_lt (by decide), rfl⟩
    · intro c hc hother byte hbyte
      -- A byte ten would spell a line feed.
      rw [beq_eq_false_iff_ne] at hother ⊢
      rintro rfl
      exact hother ((Codec.ten_mem_spelling_iff (hcovers c hc)).mp hbyte)
  have hdecode : ∀ line ∈ splitLines (· == '\n') text.toList,
      (decodeNamed name (line.flatMap codec.spelling)).map String.ofList
        = .ok (String.ofList line) := by
    intro line hline
    have hsub : ∀ c ∈ line, codec.covers c = true := by
      intro c hc
      apply hcovers
      rw [← splitLines_flatten (· == '\n') text.toList]
      exact List.mem_flatten.mpr ⟨line, hline, hc⟩
    rw [decodeNamed, hname]
    change (codec.decode (line.flatMap codec.spelling)).map String.ofList = _
    rw [Codec.decode_spelling hcodec hsub]
    rfl
  rw [ofBytes, decoded, ofText, hlines, List.map_map]
  congr 1
  exact List.map_congr_left hdecode

namespace Settings

/-- A choice of something else leaves the codec as it is. -/
theorem encoding_choose_of_ne (s : Settings) {name : String} (h : name ≠ "Encoding")
    (choice : Choice) : (s.choose name choice).encoding = s.encoding := by
  cases choice with
  | text value =>
      simp only [choose, if_neg h]
      split <;> rfl
  | number value =>
      simp only [choose]
      split
      · rfl
      · split
        · rfl
        · split <;> rfl
  | blank =>
      simp only [choose]
      split
      · rfl
      · split
        · rfl
        · split <;> rfl

/-- The codec is the one that is chosen, wherever among the choices that is, if no other
    is. -/
theorem encoding_foldl_choose {name : String} (choices : List (String × Choice)) (s : Settings)
    (honly : ∀ choice, ("Encoding", choice) ∈ choices → choice = .text name)
    (hchosen : s.encoding = name ∨ ("Encoding", .text name) ∈ choices) :
    (choices.foldl (fun s choice => s.choose choice.1 choice.2) s).encoding = name := by
  induction choices generalizing s with
  | nil =>
      rcases hchosen with hs | hmem
      · exact hs
      · cases hmem
  | cons first rest ih =>
      rcases first with ⟨key, choice⟩
      rw [List.foldl_cons]
      apply ih
      · exact fun choice hmem => honly choice (List.mem_cons_of_mem _ hmem)
      · by_cases hkey : key = "Encoding"
        · rw [hkey, honly choice (by rw [hkey]; exact List.mem_cons_self)]
          exact Or.inl rfl
        · rw [encoding_choose_of_ne s hkey]
          refine hchosen.imp id fun hmem => ?_
          rcases List.mem_cons.mp hmem with heq | hrest
          · exact absurd (congrArg Prod.fst heq).symm hkey
          · exact hrest

/-- The same for the settings of a run. -/
theorem encoding_of_override {name : String} {choices : List (String × Choice)}
    {settings : Settings}
    (hchoices : ∀ choice, ("Encoding", choice) ∈ choices ↔ choice = .text name)
    (h : override choices = .ok settings) : settings.encoding = name := by
  unfold override at h
  dsimp only at h
  split at h
  · rw [← Except.ok.inj h]
    exact encoding_foldl_choose choices standard (fun choice => (hchoices choice).mp)
      (Or.inr ((hchoices _).mpr rfl))
  · cases h

end Settings

/-- A text and the bytes that spell it come to the same. Under Latin-1, ASCII and UTF-8,
    a text of characters that the codec has can be encoded, and whatever else is chosen,
    importing the bytes under that codec yields the same drawing as importing the text,
    or the same error. What is more, each line of the bytes, cut at the byte ten and
    decoded by itself, is the line of the text, and under all settings with that codec
    the two runs are the same. The bytes are the code points of the text, and under UTF-8
    those of the string. -/
theorem bytes_and_text_agree (codec : Codec) (hcodec : codec ∈ [.latin1, .ascii, .utf8])
    (text : String) (hcovers : ∀ c ∈ text.toList, codec.covers c = true) :
    ∃ bytes, codec.encode? text.toList = some bytes ∧
      (codec = .latin1 ∨ codec = .ascii → bytes.map UInt8.toNat = text.toList.map Char.toNat) ∧
      (codec = .utf8 → bytes = text.toUTF8.data.toList) ∧
      (∀ choices, (∀ choice, ("Encoding", choice) ∈ choices ↔ choice = .text codec.label) →
        importWith choices (.bytes bytes) = importWith choices (.text text)) ∧
      (∀ settings : Settings, Codec.find settings.encoding = .ok codec →
        Tokenizer.ofBytes settings.encoding bytes = Tokenizer.ofText text ∧
        importSource settings (.bytes bytes) = importSource settings (.text text)) := by
  have hsigned : codec ≠ .utf8Signature := by
    rintro rfl
    exact absurd hcodec (by decide)
  have hencode := Codec.encode?_eq_some hsigned hcovers
  have hsource : ∀ settings : Settings, Codec.find settings.encoding = .ok codec →
      Tokenizer.ofBytes settings.encoding (text.toList.flatMap codec.spelling)
          = Tokenizer.ofText text ∧
        importSource settings (.bytes (text.toList.flatMap codec.spelling))
          = importSource settings (.text text) := by
    intro settings hfind
    have hread := Tokenizer.ofBytes_eq_ofText hsigned hfind hcovers
    refine ⟨hread, ?_⟩
    -- All that a machine has of a source is its tokenizer.
    simp only [importSource, Machine.start, Source.tokenizer, hread]
  refine ⟨text.toList.flatMap codec.spelling, hencode, ?_, ?_, ?_, hsource⟩
  · intro hbytes
    exact Codec.toNat_spelling hbytes hcovers
  · rintro rfl
    rw [Codec.encode?_utf8] at hencode
    exact (Option.some.inj hencode).symm
  · intro choices hchoices
    unfold importWith
    cases hoverride : Settings.override choices with
    | error unknown => rfl
    | ok settings =>
        have hname := Settings.encoding_of_override hchoices hoverride
        have hfind : Codec.find settings.encoding = .ok codec := by
          rw [hname]
          exact Codec.find_label hsigned
        change (importSource settings _).drawing.mapError _
          = (importSource settings _).drawing.mapError _
        rw [(hsource settings hfind).2]

/-- A program with an accented comment, an operand stack of two and an unknown name. Its
    bytes under Latin-1 are not its bytes under UTF-8, and both come to what the text
    comes to. -/
theorem bytes_and_text_agree_accented :
    let text := "% trac\u00e9\n1 2 moveto\n/\u00e9t\u00e9 nowhere"
    let narrow : List (String × Settings.Choice) :=
      [("MaxOpStack", .number 2), ("Encoding", .text "latin-1")]
    let wide : List (String × Settings.Choice) :=
      [("MaxOpStack", .number 2), ("Encoding", .text "utf-8")]
    (∀ c ∈ text.toList, Codec.latin1.covers c = true) ∧
      (∀ c ∈ text.toList, Codec.utf8.covers c = true) ∧
      ∃ bytes bytes', Codec.latin1.encode? text.toList = some bytes ∧
        Codec.utf8.encode? text.toList = some bytes' ∧ bytes ≠ bytes' ∧
        importWith narrow (.bytes bytes) = importWith narrow (.text text) ∧
        importWith wide (.bytes bytes') = importWith wide (.text text) := by
  intro text narrow wide
  have hnarrow : ∀ c ∈ text.toList, Codec.latin1.covers c = true :=
    List.all_eq_true.mp (by decide +kernel)
  have hwide : ∀ c ∈ text.toList, Codec.utf8.covers c = true := fun _ _ => rfl
  rcases bytes_and_text_agree .latin1 (by decide) text hnarrow with ⟨bytes, hbytes, _, _, hagree, _⟩
  rcases bytes_and_text_agree .utf8 (by decide) text hwide with ⟨bytes', hbytes', _, _, hagree', _⟩
  refine ⟨hnarrow, hwide, bytes, bytes', hbytes, hbytes', ?_, ?_, ?_⟩
  · have hne : Codec.latin1.encode? text.toList ≠ Codec.utf8.encode? text.toList := by
      decide +kernel
    intro heq
    rw [hbytes, hbytes', heq] at hne
    exact hne rfl
  · exact hagree narrow (by simp [narrow, Codec.label])
  · exact hagree' wide (by simp [wide, Codec.label])

end PathScript
