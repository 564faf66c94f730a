import ColumnStore.Proofs.Wire.Answer

/-!
# Lines that Were Written

Texts become bytes in UTF-8, and each line gets a newline at its end. The last line may
lack it if it has a character at all: an empty line without an end leaves no byte. These
lines are found again in the bytes. No byte of another character is a newline, and a text
that holds no carriage return does not lose its last character as one.

## Main definitions

* `Wire.encode`: The bytes of a text.
* `Wire.ended`: The bytes of a line with its end.
* `Wire.Writes`: Bytes that some lines are written as.

## Theorems

* `Wire.text?_encode`: A text is read back from its bytes.
* `Wire.mem_of_mem_encode`: A byte below 128 is a character of the text.
* `lineTexts_of_writes`: Lines are read back from what they are written as.
-/

namespace ColumnStore

namespace Wire

/-- The bytes of a text. -/
def encode (s : List Char) : Bytes :=
  s.flatMap String.utf8EncodeChar

/-- The bytes of a line with its end. -/
def ended (line : List Char) : Bytes :=
  encode line ++ [newline]

/-- The bytes that some lines are written as. The last one may lack its end if it has a
    character. -/
def Writes (texts : List (List Char)) (bytes : Bytes) : Prop :=
  bytes = texts.flatMap ended ∨
    ∃ front last, texts = front ++ [last] ∧ last ≠ [] ∧ bytes = front.flatMap ended ++ encode last

/-- A text is read back from its bytes. -/
theorem text?_encode (s : List Char) : text? (encode s) = some s := by
  have hbytes : ByteArray.mk (encode s).toArray = s.utf8Encode :=
    (ByteArray.ext List.data_toByteArray).symm
  have hvalid : (ByteArray.mk (encode s).toArray).IsValidUTF8 := by
    rw [hbytes]
    exact ByteArray.isValidUTF8_utf8Encode
  have hstring : String.fromUTF8 (ByteArray.mk (encode s).toArray) hvalid = String.ofList s := by
    rw [← String.toByteArray_inj, String.toByteArray_ofList]
    exact hbytes
  rw [text?, String.fromUTF8?, dif_pos hvalid, hstring, Option.map_some, String.toList_ofList]

/-- A byte below 128 is all there is of its character. -/
theorem toNat_of_mem_utf8EncodeChar {c : Char} {b : UInt8} (hb : b.toNat < 128)
    (h : b ∈ String.utf8EncodeChar c) : c.toNat = b.toNat := by
  have hc : c.val.toNat = c.toNat := rfl
  simp only [String.utf8EncodeChar] at h
  split at h
  · simp only [List.mem_singleton] at h
    rw [h, UInt8.toNat_ofNat']
    omega
  · -- The bytes of longer forms all have their highest digit.
    exfalso
    split at h
    · simp only [List.mem_cons, List.not_mem_nil, or_false] at h
      rcases h with rfl | rfl <;> rw [UInt8.toNat_ofNat'] at hb <;> omega
    · split at h
      · simp only [List.mem_cons, List.not_mem_nil, or_false] at h
        rcases h with rfl | rfl | rfl <;> rw [UInt8.toNat_ofNat'] at hb <;> omega
      · simp only [List.mem_cons, List.not_mem_nil, or_false] at h
        rcases h with rfl | rfl | rfl | rfl <;> rw [UInt8.toNat_ofNat'] at hb <;> omega

/-- A byte below 128 is a character of the text. -/
theorem mem_of_mem_encode {s : List Char} {c : Char} {b : UInt8} (hb : b.toNat < 128)
    (hc : c.toNat = b.toNat) (h : b ∈ encode s) : c ∈ s := by
  rcases List.mem_flatMap.1 h with ⟨d, hd, hbyte⟩
  have hnat : d.toNat = c.toNat := by rw [toNat_of_mem_utf8EncodeChar hb hbyte, hc]
  rwa [← Char.toNat_inj.1 hnat]

theorem newline_not_mem_encode {s : List Char} (h : '\n' ∉ s) : newline ∉ encode s :=
  fun hm => h (mem_of_mem_encode (by decide) (by decide) hm)

/-- A byte that does not occur is not dropped. -/
theorem dropLastIf_of_not_mem {b : UInt8} {bs : Bytes} (h : b ∉ bs) : dropLastIf b bs = bs := by
  rw [dropLastIf, if_neg]
  intro he
  exact h (List.mem_of_getLast? he)

/-- A line without an end is its text. -/
theorem lineText?_encode {s : List Char} (hnewline : '\n' ∉ s) (hreturn : '\r' ∉ s) :
    lineText? (encode s) = some s := by
  have hno : carriageReturn ∉ encode s :=
    fun hm => hreturn (mem_of_mem_encode (by decide) (by decide) hm)
  rw [lineText?, dropLastIf_of_not_mem (newline_not_mem_encode hnewline),
    dropLastIf_of_not_mem hno, text?_encode]

/-- A line with its end is its text. -/
theorem lineText?_ended {s : List Char} (hnewline : '\n' ∉ s) (hreturn : '\r' ∉ s) :
    lineText? (ended s) = some s := by
  have hdrop : dropLastIf newline (ended s) = dropLastIf newline (encode s) := by
    rw [dropLastIf_of_not_mem (newline_not_mem_encode hnewline), dropLastIf, ended,
      if_pos List.getLast?_concat, List.dropLast_concat]
  rw [← lineText?_encode hnewline hreturn, lineText?, lineText?, hdrop]

/-- A line that has its end is cut off there. -/
theorem cutLine_ended {s : List Char} (h : '\n' ∉ s) (rest : Bytes) :
    cutLine (ended s ++ rest) = (ended s, rest) := by
  rw [ended, List.append_assoc, cutLine_append_of_not_mem (newline_not_mem_encode h)]
  rfl

/-- A line that has its end is the first of the lines. -/
theorem lines_ended {s : List Char} (h : '\n' ∉ s) (rest : Bytes) :
    lines (ended s ++ rest) = ended s :: lines rest := by
  rw [lines_of_ne_nil (by simp [ended]), cutLine_ended h]

end Wire

open Wire

theorem encode_ne_nil {s : List Char} (h : s ≠ []) : encode s ≠ [] := by
  cases s with
  | nil => exact absurd rfl h
  | cons c s =>
    intro he
    have hlength := congrArg List.length he
    rw [encode, List.flatMap_cons, List.length_append, String.length_utf8EncodeChar,
      List.length_nil] at hlength
    have hpos := Char.utf8Size_pos c
    omega

/-- Lines that all have their ends are read back, and what follows them stays. -/
theorem lineTexts_ended (statement : String) {texts : List (List Char)}
    (h : ∀ s ∈ texts, '\n' ∉ s ∧ '\r' ∉ s) (rest : Bytes) :
    lineTexts statement (texts.flatMap ended ++ rest) =
      texts.map .ok ++ lineTexts statement rest := by
  induction texts with
  | nil => rfl
  | cons s texts ih =>
    have hs := h s List.mem_cons_self
    have hrest := ih fun t ht => h t (List.mem_cons_of_mem s ht)
    have hread : Body.readLine (ended s) = .ok s := by
      rw [Body.readLine, lineText?_ended hs.1 hs.2]
    rw [List.flatMap_cons, List.append_assoc, lineTexts, lines_ended hs.1, List.map_cons, hread,
      ← lineTexts, hrest]
    rfl

/-- A line without an end is read back if it has a character. -/
theorem lineTexts_encode (statement : String) {s : List Char} (hne : s ≠ []) (hnewline : '\n' ∉ s)
    (hreturn : '\r' ∉ s) : lineTexts statement (encode s) = [.ok s] := by
  have hread : Body.readLine (encode s) = .ok s := by
    rw [Body.readLine, lineText?_encode hnewline hreturn]
  rw [lineTexts, lines_of_ne_nil (encode_ne_nil hne),
    cutLine_of_not_mem (newline_not_mem_encode hnewline), lines_nil, List.map_singleton, hread]
  rfl

/-- Lines are read back from what they are written as. -/
theorem lineTexts_of_writes (statement : String) {texts : List (List Char)} {bytes : Bytes}
    (h : ∀ s ∈ texts, '\n' ∉ s ∧ '\r' ∉ s) (hbytes : Writes texts bytes) :
    lineTexts statement bytes = texts.map .ok := by
  rcases hbytes with rfl | ⟨front, last, rfl, hne, rfl⟩
  · have hall := lineTexts_ended statement h []
    have hnil : lineTexts statement [] = [] := by rw [lineTexts, lines_nil, List.map_nil]
    rwa [List.append_nil, hnil, List.append_nil] at hall
  · have hlast := h last (by simp)
    rw [lineTexts_ended statement (fun s hs => h s (List.mem_append_left _ hs)),
      lineTexts_encode statement hne hlast.1 hlast.2, List.map_append, List.map_singleton]

end ColumnStore
