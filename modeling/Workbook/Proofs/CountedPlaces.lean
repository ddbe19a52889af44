import Mathlib.Data.List.SplitBy
import Workbook.Proofs.EarlyEnds

/-!
# Places from counted lines and columns

The lines of a text are cut after each newline character. Since that character is the only one whose bytes
hold the byte of a newline, the first lines take as many bytes of the text as they are long, whatever else
stands in them. So the place of a line and a column inverts counting them, and it is never beyond the text.
-/

namespace Workbook.Source

open Json (byteCount)

/-! ## Bytes of characters -/

/-- The bytes of a text are those of its characters. -/
theorem bytes_eq_flatMap (text : String) : bytes text = text.toList.flatMap String.utf8EncodeChar := by
  have hencode : text.toList.utf8Encode.data.toList = text.toList.flatMap String.utf8EncodeChar :=
    List.toList_data_toByteArray
  rw [← hencode, String.utf8Encode_toList]
  rfl

/-- Characters have as many bytes as are counted for them. -/
theorem length_flatMap_encode (cs : List Char) : (cs.flatMap String.utf8EncodeChar).length = byteCount cs := by
  have hlength := length_bytes (String.ofList cs)
  rwa [bytes_eq_flatMap, String.toList_ofList] at hlength

/-- The bytes of characters and more of them add up. -/
theorem byteCount_append (cs ds : List Char) : byteCount (cs ++ ds) = byteCount cs + byteCount ds := by
  rw [← length_flatMap_encode, List.flatMap_append, List.length_append, length_flatMap_encode, length_flatMap_encode]

/-- No other character than the newline has its byte. -/
theorem newline_not_mem_encodeChar {c : Char} (h : c ≠ '\n') : newline ∉ String.utf8EncodeChar c := by
  have hcode : c.val.toNat ≠ 10 := fun hc => h (Char.toNat_inj.1 hc)
  have byte {n : Nat} (hn : n < 256) (hne : n ≠ 10) : newline ≠ UInt8.ofNat n := by
    intro heq
    have hvalue := congrArg UInt8.toNat heq
    rw [UInt8.toNat_ofNat', Nat.mod_eq_of_lt hn] at hvalue
    exact hne hvalue.symm
  unfold String.utf8EncodeChar
  dsimp only
  split_ifs
  · rw [List.mem_singleton]
    exact byte (by omega) hcode
  -- every byte of a longer form is at least 128
  all_goals
    simp only [List.mem_cons, List.not_mem_nil, or_false, not_or]
    refine ⟨byte (by omega) (by omega), ?_⟩
  · exact byte (by omega) (by omega)
  · exact ⟨byte (by omega) (by omega), byte (by omega) (by omega)⟩
  · exact ⟨byte (by omega) (by omega), byte (by omega) (by omega), byte (by omega) (by omega)⟩

/-- Characters without a line feed have no byte of one. -/
theorem newline_not_mem_flatMap {cs : List Char} (h : '\n' ∉ cs) :
    newline ∉ cs.flatMap String.utf8EncodeChar := by
  intro hmem
  obtain ⟨c, hc, hbyte⟩ := List.mem_flatMap.1 hmem
  have hne : c ≠ '\n' := fun heq => h (heq ▸ hc)
  exact newline_not_mem_encodeChar hne hbyte

/-! ## Lines -/

/-- The lines of some characters, each with the newline that ends it. -/
def lines (cs : List Char) : List (List Char) := cs.splitBy fun c _ => c != '\n'

section Lines

variable {front rest : List Char}

/-- Characters before a newline stand in one line with what comes next. -/
theorem lines_append_singleton (h : '\n' ∉ front) (last : Char) : lines (front ++ [last]) = [front ++ [last]] := by
  have hchain : (front ++ [last]).IsChain fun c _ => (c != '\n') = true := by
    induction front with
    | nil => exact List.isChain_singleton last
    | cons c cs ih =>
      rw [List.mem_cons, not_or] at h
      rw [List.cons_append, List.isChain_cons]
      exact ⟨fun _ _ => bne_iff_ne.2 (Ne.symm h.1), ih h.2⟩
  exact List.splitBy_of_isChain (List.concat_ne_nil last front) hchain

/-- Characters up to the first newline are the first line. -/
theorem lines_cons (h : '\n' ∉ front) : lines (front ++ '\n' :: rest) = (front ++ ['\n']) :: lines rest := by
  have hcut : lines (front ++ ['\n'] ++ rest) = lines (front ++ ['\n']) ++ lines rest := by
    refine List.splitBy_append fun c hc _ _ => ?_
    rw [List.getLast?_concat, Option.mem_some] at hc
    rw [← hc]
    rfl
  rw [List.append_cons, hcut, lines_append_singleton h, List.singleton_append]

/-- Characters without a newline are one line, unless there are none. -/
theorem flatten_lines_of_not_mem (h : '\n' ∉ front) (k : Nat) : ((lines front).take (k + 1)).flatten = front := by
  cases front using List.reverseRecOn with
  | nil => rfl
  | append_singleton cs last =>
    have hcs : '\n' ∉ cs := fun hmem => h (List.mem_append_left _ hmem)
    rw [lines_append_singleton hcs, List.take_succ_cons, List.take_nil, List.flatten_singleton]

/-- The bytes of a line that goes on do not end it. -/
theorem lineStart_append {bs : List UInt8} (h : newline ∉ bs) (k : Nat) (more : List UInt8) :
    lineStart (k + 1) (bs ++ more) = bs.length + lineStart (k + 1) more := by
  induction bs with
  | nil => rw [List.nil_append, List.length_nil, Nat.zero_add]
  | cons b bs ih =>
    rw [List.mem_cons, not_or] at h
    have hb : (b == newline) = false := beq_eq_false_iff_ne.2 (Ne.symm h.1)
    rw [List.cons_append, lineStart, hb, if_neg Bool.false_ne_true, ih h.2, List.length_cons]
    omega

/-- The first lines of a text take as many of its bytes as their characters have. -/
theorem lineStart_eq_byteCount (k : Nat) (cs : List Char) :
    lineStart k (cs.flatMap String.utf8EncodeChar) = byteCount ((lines cs).take k).flatten := by
  induction k generalizing cs with
  | zero => rw [lineStart, List.take_zero]; rfl
  | succ k ih =>
    by_cases hnewline : '\n' ∈ cs
    · obtain ⟨front, rest, rfl, hfront⟩ := List.eq_append_cons_of_mem hnewline
      have hrest : lineStart (k + 1) (('\n' :: rest).flatMap String.utf8EncodeChar) =
          lineStart k (rest.flatMap String.utf8EncodeChar) + 1 := rfl
      have hline : byteCount ['\n'] = 1 := rfl
      rw [lines_cons hfront, List.take_succ_cons, List.flatten_cons, byteCount_append, byteCount_append, hline,
        ← ih rest, List.flatMap_append, lineStart_append (newline_not_mem_flatMap hfront), length_flatMap_encode,
        hrest]
      omega
    · have hwhole := lineStart_append (newline_not_mem_flatMap hnewline) k []
      rw [List.append_nil, length_flatMap_encode] at hwhole
      rw [hwhole, flatten_lines_of_not_mem hnewline]
      rfl

end Lines

/-! ## Places -/

/-- What has been read of a text starts a line unless it ends inside one. -/
theorem atLineStart_iff {read : List UInt8} : AtLineStart read ↔ ¬(read ≠ [] ∧ read.getLast? ≠ some newline) := by
  cases hlast : read.getLast? with
  | none => simp [AtLineStart, List.getLast?_eq_none_iff.1 hlast]
  | some b =>
    have hne : read ≠ [] := by
      rintro rfl
      cases hlast
    simp [AtLineStart, hlast, hne]

/-- The place of a line and a column is found behind the lines before, by the bytes of the column before its
last one, and it is never beyond the text. It inverts counting: after any bytes of the text, the place of the
line and the column that they count is that of the last of them, or the place behind them if they are none or
end a line. -/
theorem byteIndex_inverts_counting (text : String) :
    (∀ read, read <+: bytes text →
      byteIndex (bytes text) (1 + read.count newline) (read.reverse.takeWhile (· != newline)).length =
        if read ≠ [] ∧ read.getLast? ≠ some newline then read.length - 1 else read.length) ∧
    ∀ line column,
      byteIndex (bytes text) line column =
        min (byteCount ((lines text.toList).take (line - 1)).flatten + (column - 1)) (byteCount text.toList) ∧
      byteIndex (bytes text) line column ≤ (bytes text).length := by
  refine ⟨?_, fun line column => ⟨?_, Nat.min_le_right _ _⟩⟩
  · rintro read ⟨more, hmore⟩
    have hplace := byteIndex_position read more
    rw [hmore, position, Nat.add_comm] at hplace
    rw [hplace, ite_congr (propext atLineStart_iff) (fun _ => rfl) (fun _ => rfl), ite_not]
  · rw [byteIndex, length_bytes, bytes_eq_flatMap, lineStart_eq_byteCount]

/-- A letter of two bytes and a carriage return in the first line, and a second line that no newline ends. -/
theorem byteIndex_inverts_counting_twoLines :
    [0xC3, 0xA9, 0x0D] <+: bytes "é\r\nx" ∧ byteIndex (bytes "é\r\nx") 1 3 = 2 ∧
      [0xC3, 0xA9, 0x0D, 0x0A] <+: bytes "é\r\nx" ∧ byteIndex (bytes "é\r\nx") 2 0 = 4 ∧
      [0xC3, 0xA9, 0x0D, 0x0A, 0x78] <+: bytes "é\r\nx" ∧ byteIndex (bytes "é\r\nx") 2 1 = 4 := by
  have hbytes : bytes "é\r\nx" = [0xC3, 0xA9, 0x0D, 0x0A, 0x78] := by decide
  have hinside : [0xC3, 0xA9, 0x0D] <+: bytes "é\r\nx" := by rw [hbytes]; decide
  have hline : [0xC3, 0xA9, 0x0D, 0x0A] <+: bytes "é\r\nx" := by rw [hbytes]; decide
  have hend : [0xC3, 0xA9, 0x0D, 0x0A, 0x78] <+: bytes "é\r\nx" := hbytes ▸ List.prefix_rfl
  have inverts := (byteIndex_inverts_counting "é\r\nx").1
  exact ⟨hinside, inverts _ hinside, hline, inverts _ hline, hend, inverts _ hend⟩

end Workbook.Source
