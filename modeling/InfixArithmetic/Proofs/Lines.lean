/-
  Lines of bytes, and the lines of a text that is encoded.

  A byte below 128 in an encoding is a character of its own (`Text.utf8EncodeChar_eq_of_mem`), so the
  bytes that end lines can be put behind bytes or taken away without a change to whether they are a
  text (`Text.isSome_decode?_concat_iff`). Lines are cut off one by one
  (`Text.lines_append_lineFeed`), and bytes behind a line feed begin a new line
  (`Text.lines_append`).
-/
import InfixArithmetic.Text.Lines
import Mathlib.Data.List.Basic

namespace InfixArithmetic.Text

/-! ## Encodings -/

theorem encode_eq_flatMap (text : String) :
    encode text = text.toList.flatMap String.utf8EncodeChar := by
  unfold encode
  rw [String.toUTF8_eq_toByteArray]
  conv_lhs => rw [← String.ofList_toList (s := text)]
  rw [String.toByteArray_ofList, List.utf8Encode, List.data_toByteArray]

theorem encode_append (front back : String) :
    encode (front ++ back) = encode front ++ encode back := by
  rw [encode_eq_flatMap, encode_eq_flatMap, encode_eq_flatMap, String.toList_append,
    List.flatMap_append]

/-- A byte below 128 is the encoding of one character, and in no other encoding. -/
theorem utf8EncodeChar_eq_of_mem {c : Char} {byte : UInt8} (h : byte ∈ String.utf8EncodeChar c)
    (hlt : byte.toNat < 128) : String.utf8EncodeChar c = [byte] ∧ c.toNat = byte.toNat := by
  unfold String.utf8EncodeChar at h ⊢
  dsimp only at h ⊢
  split at h
  · rename_i hone
    rw [if_pos hone]
    obtain rfl := List.mem_singleton.mp h
    refine ⟨rfl, ?_⟩
    rw [UInt8.toNat_ofNat_of_lt' (Nat.lt_of_le_of_lt hone (by decide))]
    rfl
  · -- all bytes of the longer encodings are 128 at least
    exfalso
    have hhigh : ∀ n, 128 ≤ n → n < 256 → byte ≠ UInt8.ofNat n := by
      rintro n hle hn rfl
      rw [UInt8.toNat_ofNat_of_lt' hn] at hlt
      omega
    split at h
    · simp only [List.mem_cons, List.not_mem_nil, or_false] at h
      rcases h with h | h <;> exact hhigh _ (by omega) (by omega) h
    · split at h
      · simp only [List.mem_cons, List.not_mem_nil, or_false] at h
        rcases h with h | h | h <;> exact hhigh _ (by omega) (by omega) h
      · simp only [List.mem_cons, List.not_mem_nil, or_false] at h
        rcases h with h | h | h | h <;> exact hhigh _ (by omega) (by omega) h

/-- A line without the carriage return at its end, if there is one. -/
def withoutReturn (line : Bytes) : Bytes :=
  if line.getLast? = some carriageReturn then line.dropLast else line

theorem withoutReturn_cons_cons (byte next : UInt8) (line : Bytes) :
    withoutReturn (byte :: next :: line) = byte :: withoutReturn (next :: line) := by
  unfold withoutReturn
  rw [List.getLast?_cons_cons, List.dropLast_cons_cons]
  split <;> rfl

/-- The first line goes to the first line feed. -/
theorem lines_append_lineFeed {line : Bytes} (h : lineFeed ∉ line) (rest : Bytes) :
    lines (line ++ lineFeed :: rest) = withoutReturn line :: lines rest := by
  have hnil : lines (lineFeed :: rest) = [] :: lines rest := by cases rest <;> rfl
  induction line with
  | nil => exact hnil
  | cons byte line ih =>
    obtain ⟨hbyte, hline⟩ := List.ne_and_not_mem_of_not_mem_cons h
    -- `lines` looks at two bytes at a time: only the last one has the line feed behind it
    cases line with
    | nil =>
      rw [List.cons_append, List.nil_append, lines, if_neg hbyte.symm]
      by_cases hreturn : byte = carriageReturn
      · rw [if_pos ⟨hreturn, rfl⟩, hreturn]
        rfl
      · have hsame : withoutReturn [byte] = [byte] := if_neg (by simpa using hreturn)
        rw [if_neg (fun hboth => hreturn hboth.1), hnil, hsame]
        rfl
    | cons next line =>
      have hnext : next ≠ lineFeed := (List.ne_of_not_mem_cons hline).symm
      rw [List.cons_append, List.cons_append, lines, if_neg hbyte.symm,
        if_neg (fun hboth => hnext hboth.2), withoutReturn_cons_cons]
      show consLine byte (lines (next :: line ++ lineFeed :: rest)) = _
      rw [ih hline]
      rfl

/-- A byte below 128 is in the encoding of its own character only. -/
theorem eq_of_mem_utf8EncodeChar {c d : Char} {byte : UInt8} (hlt : byte.toNat < 128)
    (hc : c.toNat = byte.toNat) (h : byte ∈ String.utf8EncodeChar d) : d = c :=
  Char.toNat_inj.mp ((utf8EncodeChar_eq_of_mem h hlt).2.trans hc.symm)

theorem not_mem_encode {text : String} {c : Char} {byte : UInt8} (hlt : byte.toNat < 128)
    (hc : c.toNat = byte.toNat) (h : c ∉ text.toList) : byte ∉ encode text := by
  rw [encode_eq_flatMap, List.mem_flatMap]
  rintro ⟨d, hd, hmem⟩
  rw [eq_of_mem_utf8EncodeChar hlt hc hmem] at hd
  exact h hd

theorem getLast?_encode_ne {text : String} {c : Char} {byte : UInt8} (hlt : byte.toNat < 128)
    (hc : c.toNat = byte.toNat) (h : text.toList.getLast? ≠ some c) :
    (encode text).getLast? ≠ some byte := by
  rw [encode_eq_flatMap]
  rcases List.eq_nil_or_concat text.toList with hnil | ⟨front, d, hconcat⟩
  · rw [hnil]
    exact nofun
  · rw [hconcat, List.concat_eq_append] at h ⊢
    rw [List.getLast?_concat] at h
    rw [List.flatMap_append, List.flatMap_singleton,
      List.getLast?_append_of_ne_nil _ String.utf8EncodeChar_ne_nil]
    intro hlast
    exact h (congrArg some (eq_of_mem_utf8EncodeChar hlt hc (List.mem_of_getLast? hlast)))

/-- A text that stands on one line: it has no line feed, and no carriage return at its end. -/
structure IsLine (text : String) : Prop where
  lineFeed_not_mem : '\n' ∉ text.toList
  getLast?_ne : text.toList.getLast? ≠ some '\r'

/-- Such a text is one line, whatever stands behind its line feed. -/
theorem IsLine.lines_encode {text : String} (h : IsLine text) (rest : String) :
    lines (encode (text ++ "\n" ++ rest)) = encode text :: lines (encode rest) := by
  have hnewline : encode "\n" = [lineFeed] := by decide
  have hfeed : lineFeed ∉ encode text := not_mem_encode (by decide) rfl h.lineFeed_not_mem
  have hreturn : (encode text).getLast? ≠ some carriageReturn :=
    getLast?_encode_ne (by decide) rfl h.getLast?_ne
  rw [encode_append, encode_append, hnewline, List.append_assoc, List.singleton_append,
    lines_append_lineFeed hfeed, withoutReturn, if_neg hreturn]

/-- A text without a line feed that does not end in a carriage return is one line. -/
theorem lines_encode_append_newline {text : String} (hfeed : '\n' ∉ text.toList)
    (hreturn : text.toList.getLast? ≠ some '\r') :
    lines (encode (text ++ "\n")) = [encode text] := by
  have hline := IsLine.lines_encode ⟨hfeed, hreturn⟩ ""
  rw [String.append_empty] at hline
  exact hline

/-! ## Lines one below the other -/

/-- Texts, each with a line feed behind it. -/
def ofLines (texts : List String) : String := String.join (texts.map (· ++ "\n"))

theorem ofLines_cons (text : String) (texts : List String) :
    ofLines (text :: texts) = text ++ "\n" ++ ofLines texts := by
  rw [ofLines, List.map_cons, String.join_cons]
  rfl

theorem ofLines_singleton (text : String) : ofLines [text] = text ++ "\n" := by
  rw [ofLines_cons]
  exact String.append_empty

theorem ofLines_append (front back : List String) :
    ofLines (front ++ back) = ofLines front ++ ofLines back := by
  rw [ofLines, List.map_append, String.join_append]
  rfl

theorem ofLines_eq_empty_iff {texts : List String} : ofLines texts = "" ↔ texts = [] := by
  cases texts with
  | nil => exact iff_of_true rfl rfl
  | cons text texts =>
    rw [ofLines_cons]
    simp

/-- The lines that are written are the lines that are read. -/
theorem lines_encode_ofLines {texts : List String} (h : ∀ text ∈ texts, IsLine text) :
    lines (encode (ofLines texts)) = texts.map encode := by
  induction texts with
  | nil => rfl
  | cons text texts ih =>
    obtain ⟨htext, htexts⟩ := List.forall_mem_cons.mp h
    rw [ofLines_cons, htext.lines_encode, ih htexts, List.map_cons]

end InfixArithmetic.Text
