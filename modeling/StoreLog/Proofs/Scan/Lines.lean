-- SUMMARY: How a source falls into lines.
import Mathlib.Data.List.Basic
import StoreLog.Proofs.Text.Split
import StoreLog.Proofs.Text.Utf8
import StoreLog.Scan.Source

/-!
# The lines of a source

The lines of a source that can be read to its end, said without the chunks in
which it is read: its bytes are cut at the line feeds, and each piece is a line.
-/

namespace StoreLog.Source

/-- A carriage return that ends a line is no part of it. -/
def dropReturn (piece : Bytes) : Bytes :=
  if piece.getLast? = some 0x0D then piece.dropLast else piece

/-- The pieces between line feeds. The last piece ends the content and not a line: it
keeps its carriage return, and is none if it is empty. -/
def pieces (content : Bytes) : List Bytes :=
  let ps := content.splitOn lineFeed
  ps.dropLast.map dropReturn ++ ps.getLast?.toList.filter (!·.isEmpty)

/-- A piece as text. -/
def readPiece (piece : Bytes) : Except IoError Text :=
  match Utf8.decode piece with
  | none => .error .notUtf8
  | some s => .ok s

/-! ## Cutting -/

theorem chunks_append_lineFeed {p : Bytes} (hp : lineFeed ∉ p) (r : Bytes) :
    chunks (p ++ lineFeed :: r) = (p ++ [lineFeed]) :: chunks r := by
  induction p with
  | nil => simp [chunks]
  | cons b p ih =>
    obtain ⟨hb, hp⟩ := not_or.1 (mt List.mem_cons.2 hp)
    rw [List.cons_append, chunks, if_neg (Ne.symm hb), ih hp]
    rfl

theorem chunks_of_not_mem {p : Bytes} (hp : lineFeed ∉ p) :
    chunks p = [p].filter (!·.isEmpty) := by
  induction p with
  | nil => rfl
  | cons b p ih =>
    obtain ⟨hb, hp⟩ := not_or.1 (mt List.mem_cons.2 hp)
    rw [chunks, if_neg (Ne.symm hb), ih hp]
    cases p <;> rfl

theorem pieces_append_lineFeed {p : Bytes} (hp : lineFeed ∉ p) (r : Bytes) :
    pieces (p ++ lineFeed :: r) = dropReturn p :: pieces r := by
  obtain ⟨q, qs, hq⟩ := List.exists_cons_of_ne_nil (List.splitOn_ne_nil lineFeed r)
  simp [pieces, List.splitOn_append_cons_self_of_not_mem hp, hq]

theorem pieces_of_not_mem {p : Bytes} (hp : lineFeed ∉ p) :
    pieces p = [p].filter (!·.isEmpty) := by
  simp [pieces, List.splitOn_eq_singleton hp]

theorem mem_dropReturn {b : UInt8} {p : Bytes} (h : b ∈ dropReturn p) : b ∈ p := by
  unfold dropReturn at h
  split at h
  · exact List.dropLast_subset p h
  · exact h

theorem lineFeed_not_mem_of_mem_pieces {content p : Bytes} (h : p ∈ pieces content) :
    lineFeed ∉ p := by
  induction content using split_induction (a := lineFeed) with
  | last q hq =>
    rw [pieces_of_not_mem hq] at h
    obtain ⟨rfl, -⟩ := by simpa using h
    exact hq
  | piece q r hq ih =>
    rw [pieces_append_lineFeed hq] at h
    rcases List.mem_cons.1 h with rfl | h
    · exact fun hp => hq (mem_dropReturn hp)
    · exact ih h

/-! ## Reading -/

theorem decode_dropReturn (p : Bytes) :
    Utf8.decode (dropReturn p) = (Utf8.decode p).map fun s => (['\r'].isSuffixOf? s).getD s := by
  rcases List.eq_nil_or_concat p with rfl | ⟨q, b, rfl⟩
  · simp [dropReturn, Utf8.decode, List.isSuffixOf?, List.isPrefixOf?]
  rw [List.concat_eq_append]
  by_cases hb : b = 0x0D
  · subst hb
    have hq := Utf8.decode_append_ascii (c := '\r') (by decide) q
    have hs (s : Text) : ['\r'].isSuffixOf? (s ++ ['\r']) = some s := by simp
    change Utf8.decode (q ++ [0x0D]) = _ at hq
    simp [dropReturn, hq, hs, Function.comp_def]
  · have hd : dropReturn (q ++ [b]) = q ++ [b] := by simp [dropReturn, hb]
    rw [hd]
    cases h : Utf8.decode (q ++ [b]) with
    | none => rfl
    | some s =>
      -- A text that ends with a carriage return has it as its last byte.
      have hs : ['\r'].isSuffixOf? s = none := by
        rw [Option.eq_none_iff_forall_ne_some]
        intro t ht
        rw [List.isSuffixOf?_eq_some_iff_append_eq] at ht
        subst ht
        have he := Utf8.encode_of_decode h
        rw [Utf8.encode_append] at he
        exact hb (List.singleton_inj.1 (List.append_inj' he rfl).2).symm
      simp [hs]

theorem line_append_lineFeed (p : Bytes) : line (p ++ [lineFeed]) = readPiece (dropReturn p) := by
  have hp := Utf8.decode_append_ascii (c := '\n') (by decide) p
  have hs (s : Text) : ['\n'].isSuffixOf? (s ++ ['\n']) = some s := by simp
  change Utf8.decode (p ++ [lineFeed]) = _ at hp
  rw [line, readPiece, decode_dropReturn, hp]
  cases Utf8.decode p with
  | none => rfl
  | some s => simp [dropEnding, hs]

theorem line_of_not_mem {p : Bytes} (hp : lineFeed ∉ p) : line p = readPiece p := by
  rw [line, readPiece]
  cases h : Utf8.decode p with
  | none => rfl
  | some s =>
    have hs : ['\n'].isSuffixOf? s = none := by
      rw [Option.eq_none_iff_forall_ne_some]
      intro t ht
      rw [List.isSuffixOf?_eq_some_iff_append_eq] at ht
      subst ht
      exact hp (Utf8.encode_of_decode h ▸ Utf8.lineFeed_mem_encode.2 (by simp))
    simp [dropEnding, hs]

/-- Without a reading fault, the lines are the pieces of the content. -/
theorem lines_eq_pieces (content : Bytes) :
    lines { content } = (pieces content).map readPiece := by
  change (chunks content).map line = _
  induction content using split_induction (a := lineFeed) with
  | last p hp =>
    rw [chunks_of_not_mem hp, pieces_of_not_mem hp]
    cases p with
    | nil => rfl
    | cons b p => simp [line_of_not_mem hp]
  | piece p r hp ih =>
    rw [chunks_append_lineFeed hp, pieces_append_lineFeed hp, List.map_cons, List.map_cons,
      line_append_lineFeed, ih]

/-- A line that is read has no line feed. -/
theorem lineFeed_not_mem_of_mem_lines {content : Bytes} {s : Text}
    (h : .ok s ∈ lines { content }) : '\n' ∉ s := by
  rw [lines_eq_pieces, List.mem_map] at h
  obtain ⟨p, hp, hs⟩ := h
  have hd : Utf8.decode p = some s := by
    unfold readPiece at hs
    split at hs
    · cases hs
    · next hd => exact hd.trans (congrArg some (Except.ok.inj hs))
  rw [← Utf8.lineFeed_mem_encode, Utf8.encode_of_decode hd]
  exact lineFeed_not_mem_of_mem_pieces hp

end StoreLog.Source
