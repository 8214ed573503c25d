import PrefixCalc.Proofs.Text.Lines

/-!
# Text as bytes

The bytes of a text are its characters in UTF-8, one after another.  An ASCII byte stands for the
ASCII character with its number and is part of no other character's code, so a newline byte is
always a whole newline.  This is what lets bytes be split into lines before they are decoded
(`lines_encode`): a stream of bytes is valid when all of its lines are, and then it has the lines of
the text (`exists_encode_of_forall_lines`).
-/

namespace PrefixCalc
namespace Text

/-- The bytes of a text. -/
def encode (text : List Char) : List UInt8 :=
  text.flatMap String.utf8EncodeChar

theorem encode_append (first second : List Char) :
    encode (first ++ second) = encode first ++ encode second :=
  List.flatMap_append

/-- An ASCII byte in the code of a character is the number of the character. -/
theorem toNat_eq_of_mem_utf8EncodeChar {c : Char} {byte : UInt8}
    (hMem : byte ∈ String.utf8EncodeChar c) (hAscii : byte.toNat < 128) :
    c.toNat = byte.toNat := by
  have hValue : c.val.toNat = c.toNat := rfl
  simp only [String.utf8EncodeChar] at hMem
  split_ifs at hMem with hOne hTwo hThree
  · rw [List.mem_singleton.1 hMem, UInt8.toNat_ofNat']
    omega
  all_goals
    -- The bytes of a longer code are all above ASCII.
    simp only [List.mem_cons, List.not_mem_nil, or_false] at hMem
    rcases hMem with rfl | rfl | rfl | rfl <;> rw [UInt8.toNat_ofNat'] at hAscii <;> omega

theorem eq_of_mem_utf8EncodeChar {c mark : Char} {byte : UInt8}
    (hMem : byte ∈ String.utf8EncodeChar c) (hMark : mark.toNat = byte.toNat)
    (hAscii : byte.toNat < 128) : c = mark :=
  Char.toNat_inj.1 ((toNat_eq_of_mem_utf8EncodeChar hMem hAscii).trans hMark.symm)

theorem keepsLines_utf8EncodeChar : KeepsLines String.utf8EncodeChar '\n' '\r' 10 13 where
  newline_eq := by decide
  ret_eq := by decide
  eq_newline _ hMem := eq_of_mem_utf8EncodeChar hMem rfl (by decide)
  eq_ret _ hMem := eq_of_mem_utf8EncodeChar hMem rfl (by decide)
  ne_nil _ := String.utf8EncodeChar_ne_nil

/-- The lines of the bytes of a text are the bytes of its lines. -/
theorem lines_encode (text : List Char) :
    lines 10 13 (encode text) = (lines '\n' '\r' text).map encode :=
  keepsLines_utf8EncodeChar.lines_flatMap text

/-- Bytes are those of a text when the bytes of each line are. -/
theorem exists_encode_of_forall_lines {bytes : List UInt8}
    (h : ∀ line ∈ lines 10 13 bytes, ∃ text, line = encode text) : ∃ text, bytes = encode text := by
  refine of_forall_lines (P := fun piece => ∃ text, piece = encode text) ⟨[], rfl⟩ ?_ ⟨['\n'], ?_⟩
    ⟨['\r'], ?_⟩ h
  · rintro _ _ ⟨first, rfl⟩ ⟨second, rfl⟩
    exact ⟨first ++ second, (encode_append first second).symm⟩
  · decide
  · decide

/-! ## Arrays of bytes -/

private theorem toList_loop (bytes : ByteArray) (start : Nat) (backwards : List UInt8) :
    ByteArray.toList.loop bytes start backwards =
      backwards.reverse ++ bytes.data.toList.drop start := by
  fun_induction ByteArray.toList.loop bytes start backwards with
  | case1 start backwards hLt ih =>
    have hLength : start < bytes.data.toList.length := by simpa using hLt
    have hHead : bytes.get! start = bytes.data.toList[start] := by
      rw [Array.getElem_toList]
      exact getElem!_pos bytes.data start hLt
    rw [ih, List.drop_eq_getElem_cons hLength, hHead, List.reverse_cons, List.append_assoc]
    rfl
  | case2 start backwards hLe =>
    have hLength : bytes.data.toList.length ≤ start := by simpa using Nat.le_of_not_lt hLe
    rw [List.drop_eq_nil_of_le hLength, List.append_nil]

theorem toList_toByteArray (bytes : List UInt8) : bytes.toByteArray.toList = bytes := by
  rw [ByteArray.toList, toList_loop, List.toList_data_toByteArray]
  rfl

theorem toByteArray_toList (bytes : ByteArray) : bytes.toList.toByteArray = bytes := by
  have hList : bytes.toList = bytes.data.toList := by
    rw [ByteArray.toList, toList_loop]
    rfl
  apply ByteArray.ext
  rw [← Array.toList_inj, List.toList_data_toByteArray, hList]

/-- Decoding gives the text whose bytes these are. -/
theorem fromUTF8?_eq_some_iff {bytes : ByteArray} {text : String} :
    String.fromUTF8? bytes = some text ↔ bytes.toList = encode text.toList := by
  have hDecode : String.fromUTF8? bytes = some text ↔ text.toByteArray = bytes := by
    unfold String.fromUTF8?
    split
    · next hValid =>
      rw [Option.some.injEq]
      constructor
      · rintro rfl
        rfl
      · exact fun h => String.toByteArray_inj.1 h.symm
    · next hInvalid =>
      constructor
      · exact fun h => nomatch h
      · rintro rfl
        exact absurd text.isValidUTF8 hInvalid
  have hBytes : text.toByteArray = (encode text.toList).toByteArray := String.utf8Encode_toList.symm
  rw [hDecode, hBytes]
  constructor
  · rintro rfl
    exact toList_toByteArray _
  · intro h
    rw [← h, toByteArray_toList]

/-- Decoding fails exactly on bytes that are those of no text. -/
theorem fromUTF8?_eq_none_iff {bytes : ByteArray} :
    String.fromUTF8? bytes = none ↔ ∀ text, bytes.toList ≠ encode text := by
  constructor
  · intro h text hBytes
    rw [← String.toList_ofList (l := text)] at hBytes
    rw [fromUTF8?_eq_some_iff.2 hBytes] at h
    exact nomatch h
  · intro h
    cases hText : String.fromUTF8? bytes with
    | none => rfl
    | some text => exact absurd (fromUTF8?_eq_some_iff.1 hText) (h text.toList)

end Text
end PrefixCalc
