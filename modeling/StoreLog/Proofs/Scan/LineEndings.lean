-- SUMMARY: Carriage returns before line feeds make no difference to a scan.
import StoreLog.Proofs.Scan.Lines
import StoreLog.Scan.Basic

/-!
# Line endings

A line may end with a carriage return and a line feed as well as with a line feed alone.
Which of the two each line of a content has makes no difference to a scan, as long as no
carriage return stood before a line feed by itself.
-/

namespace StoreLog.Source

def carriageReturn : UInt8 := 0x0D

/-- A content, and the same with a carriage return put before some of its line feeds. -/
inductive AddsReturns : Bytes → Bytes → Prop
  | nil : AddsReturns [] []
  | keep {s s' : Bytes} (b : UInt8) (h : AddsReturns s s') : AddsReturns (b :: s) (b :: s')
  | add {s s' : Bytes} (h : AddsReturns s s') :
      AddsReturns (lineFeed :: s) (carriageReturn :: lineFeed :: s')

/-- No line feed has a carriage return before it. -/
def IsReturnFree (content : Bytes) : Prop :=
  ¬[carriageReturn, lineFeed] <:+: content

instance (content : Bytes) : Decidable (IsReturnFree content) :=
  inferInstanceAs (Decidable ¬[carriageReturn, lineFeed] <:+: content)

theorem AddsReturns.refl (s : Bytes) : AddsReturns s s := by
  induction s with
  | nil => exact .nil
  | cons b s ih => exact .keep b ih

theorem AddsReturns.prepend {s s' : Bytes} (h : AddsReturns s s') (p : Bytes) :
    AddsReturns (p ++ s) (p ++ s') := by
  induction p with
  | nil => exact h
  | cons b p ih => exact .keep b ih

theorem AddsReturns.eq_of_not_mem {p s : Bytes} (hp : lineFeed ∉ p) (h : AddsReturns p s) :
    s = p := by
  induction h with
  | nil => rfl
  | keep b _ ih => rw [ih fun hb => hp (List.mem_cons_of_mem b hb)]
  | add _ _ => exact absurd List.mem_cons_self hp

/-- Up to the first line feed, at most one carriage return is new. -/
theorem AddsReturns.cases_piece {p r s : Bytes} (hp : lineFeed ∉ p)
    (h : AddsReturns (p ++ lineFeed :: r) s) :
    ∃ r', AddsReturns r r' ∧
      (s = p ++ lineFeed :: r' ∨ s = (p ++ [carriageReturn]) ++ lineFeed :: r') := by
  induction p generalizing s with
  | nil =>
    cases h with
    | keep _ h => exact ⟨_, h, .inl rfl⟩
    | add h => exact ⟨_, h, .inr rfl⟩
  | cons b p ih =>
    obtain ⟨hb, hp⟩ := not_or.1 (mt List.mem_cons.2 hp)
    cases h with
    | keep _ h =>
      obtain ⟨r', hr, rfl | rfl⟩ := ih hp h
      · exact ⟨r', hr, .inl rfl⟩
      · exact ⟨r', hr, .inr rfl⟩
    | add _ => exact absurd rfl hb

theorem dropReturn_concat (p : Bytes) : dropReturn (p ++ [carriageReturn]) = p := by
  simp [dropReturn, carriageReturn]

theorem dropReturn_of_isReturnFree {p r : Bytes} (h : IsReturnFree (p ++ lineFeed :: r)) :
    dropReturn p = p := by
  refine if_neg fun hlast => h ?_
  obtain ⟨q, rfl⟩ := List.getLast?_eq_some_iff.1 hlast
  exact ⟨q, r, by simp [carriageReturn]⟩

theorem IsReturnFree.of_append {p r : Bytes} (h : IsReturnFree (p ++ lineFeed :: r)) :
    IsReturnFree r :=
  fun hr => h (hr.trans ((List.suffix_cons lineFeed r).trans (List.suffix_append p _)).isInfix)

/-- The pieces of a content do not show which of its line feeds have a carriage return. -/
theorem AddsReturns.pieces_eq {s s' : Bytes} (h : AddsReturns s s') (hs : IsReturnFree s) :
    pieces s' = pieces s := by
  induction s using split_induction (a := lineFeed) generalizing s' with
  | last p hp => rw [h.eq_of_not_mem hp]
  | piece p r hp ih =>
    obtain ⟨r', hr, rfl | rfl⟩ := h.cases_piece hp
    · rw [pieces_append_lineFeed hp, pieces_append_lineFeed hp, ih hr hs.of_append]
    · have hp' : lineFeed ∉ p ++ [carriageReturn] := by
        simpa [carriageReturn, lineFeed] using hp
      rw [pieces_append_lineFeed hp', pieces_append_lineFeed hp, ih hr hs.of_append,
        dropReturn_concat, dropReturn_of_isReturnFree hs]

end StoreLog.Source

namespace StoreLog.Scan

open Source

/-- Carriage returns before line feeds change nothing that a scan does, into whatever sink. -/
theorem run_addsReturns (settings : ScanSettings) (file : Path) (sink : Sink)
    {content other : Bytes} (h : AddsReturns content other) (hcontent : IsReturnFree content) :
    run settings file { content := other } sink = run settings file { content } sink := by
  simp only [run, lines_eq_pieces, h.pieces_eq hcontent]

/-- The first of two lines gets a carriage return, and the second one keeps that which it has
before its end. -/
theorem run_addsReturns_mixed :
    let settings : ScanSettings := ⟨"ready\r".toList, []⟩
    let first := Utf8.encode "is ready\r now".toList
    let rest := Utf8.encode "[[]]\r \n[]\r".toList
    let content := first ++ lineFeed :: rest
    let other := first ++ carriageReturn :: lineFeed :: rest
    AddsReturns content other ∧ IsReturnFree content ∧
      run settings [] { content := other } .unlimited = run settings [] { content } .unlimited ∧
      (run settings [] { content := other } .unlimited).sink.written =
        Utf8.encode "[[]]\n".toList := by
  intro settings first rest content other
  have hadds : AddsReturns content other := (AddsReturns.add (.refl rest)).prepend first
  have hcontent : IsReturnFree content := by decide +kernel
  refine ⟨hadds, hcontent, run_addsReturns settings [] .unlimited hadds hcontent, ?_⟩
  decide +kernel

end StoreLog.Scan
