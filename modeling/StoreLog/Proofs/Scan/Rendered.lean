-- SUMMARY: Store paths written into a log come back out of its scan.
import StoreLog.Proofs.Json.Printing
import StoreLog.Proofs.Payload
import StoreLog.Proofs.Scan.Rescan

/-!
# Store paths through a log

The payload of records is parsed to these records, whatever their paths are. It is a single
line without blanks at its ends, so a log has it as it is: the scan writes the payload again
and has all of its paths.
-/

namespace StoreLog

open Json (IsValue IsText commaSeparated encode)

/-! ## Records -/

namespace PhraseMatch

theorem isValue_render (depth : Nat) (m : PhraseMatch) :
    IsValue (depth + 2) (Json.render m.toValue) m.toValue := by
  have hpath : IsValue (depth + 1) (Json.render m.store.toValue) m.store.toValue :=
    Json.isValue_render_object fun member hmember => by
      obtain rfl := List.mem_singleton.1 hmember
      exact Json.isValue_render_string depth m.store.path
  refine Json.isValue_render_object fun member hmember => ?_
  obtain rfl := List.mem_singleton.1 hmember
  exact hpath

theorem isRecord_toValue (m : PhraseMatch) : IsRecord m.toValue m := by
  have hstore : IsStore m.store.toValue m.store := .object ⟨[], [], rfl, nofun⟩ rfl
  exact .object ⟨[], [], rfl, nofun⟩ hstore

theorem listsRecords_toValue (ms : List PhraseMatch) :
    ListsRecords (.array (ms.map (·.toValue))) ms := by
  refine .mk ?_
  rw [List.forall₂_map_left_iff, List.forall₂_same]
  exact fun m _ => isRecord_toValue m

end PhraseMatch

/-! ## Payloads -/

namespace Payload

theorem isText_render (ms : List PhraseMatch) :
    IsText (render ms) (.array [.array (ms.map (·.toValue))]) := by
  have hrecords : IsValue 126 (Json.render (.array (ms.map (·.toValue))))
      (.array (ms.map (·.toValue))) := by
    refine Json.isValue_render_array fun v hv => ?_
    obtain ⟨m, -, rfl⟩ := List.mem_map.1 hv
    exact m.isValue_render 123
  refine .of_item (Json.isValue_render_array fun v hv => ?_)
  obtain rfl := List.mem_singleton.1 hv
  exact hrecords

/-- The payload of records is parsed to these records. -/
theorem parse_render (ms : List PhraseMatch) : parse (render ms) = .ok ms :=
  parse_eq_ok_iff.2 ⟨_, _, isText_render ms, PhraseMatch.listsRecords_toValue ms⟩

/-- The record of a store path. -/
def storeRecord (p : Text) : Text :=
  "\x7b\"store\":\x7b\"path\":".toList ++ encode p ++ ['\x7d', '\x7d']

theorem render_toValue (p : Text) : Json.render (PhraseMatch.toValue ⟨⟨p⟩⟩) = storeRecord p := by
  have hfront : "\x7b\"store\":\x7b\"path\":".toList =
      ['\x7b'] ++ (encode "store".toList ++ [':'] ++
        (['\x7b'] ++ (encode "path".toList ++ [':']))) := by
    decide
  unfold storeRecord
  rewrite [hfront]
  simp only [PhraseMatch.toValue, StoreRef.toValue, Json.render, Json.renderMembers,
    commaSeparated, List.append_assoc, List.cons_append, List.nil_append]

/-- Records are written without blanks between them. -/
theorem render_eq (ps : List Text) :
    render (ps.map fun p => ⟨⟨p⟩⟩) =
      ['[', '['] ++ commaSeparated (ps.map storeRecord) ++ [']', ']'] := by
  have hrecords : Json.renderItems ((ps.map fun p => ⟨⟨p⟩⟩).map PhraseMatch.toValue) =
      ps.map storeRecord := by
    simp only [Json.renderItems_eq_map, List.map_map, Function.comp_def, render_toValue]
  rw [render, Json.render, Json.renderItems, Json.renderItems, Json.render, hrecords]
  simp [commaSeparated]

theorem lineFeed_not_mem_storeRecord (p : Text) : '\n' ∉ storeRecord p := by
  have hfront : '\n' ∉ "\x7b\"store\":\x7b\"path\":".toList := by decide
  unfold storeRecord
  rw [List.mem_append, List.mem_append, not_or, not_or]
  exact ⟨⟨hfront, Json.lineFeed_not_mem_encode p⟩, by decide⟩

theorem lineFeed_not_mem_render (ps : List Text) : '\n' ∉ render (ps.map fun p => ⟨⟨p⟩⟩) := by
  have hrecords : ∀ u ∈ ps.map storeRecord, '\n' ∉ u := by
    intro u hu
    obtain ⟨p, -, rfl⟩ := List.mem_map.1 hu
    exact lineFeed_not_mem_storeRecord p
  rw [render_eq, List.mem_append, List.mem_append, not_or, not_or]
  exact ⟨⟨by decide, Json.not_mem_commaSeparated (by decide) hrecords⟩, by decide⟩

theorem trim_render (ms : List PhraseMatch) : Text.trim (render ms) = render ms := by
  rw [Text.trim_eq_self_iff, render, Json.render]
  constructor
  · rintro c ⟨rfl⟩
    decide
  · intro c hc
    rw [List.getLast?_concat] at hc
    obtain rfl := Option.some.inj hc
    decide

end Payload

/-! ## Logs -/

namespace Scan

attribute [local instance] trichotomous_text

/-- Store paths are kept by the payload that lists them and by a log that has it: the payload
is parsed to the paths, and the scan writes it as it is and has its paths. -/
theorem run_render (ps : List Text) :
    let t := Payload.render (ps.map fun p => ⟨⟨p⟩⟩)
    t = ['[', '['] ++ Json.commaSeparated (ps.map Payload.storeRecord) ++ [']', ']'] ∧
      Payload.parse t = .ok (ps.map fun p => ⟨⟨p⟩⟩) ∧
      ∀ (settings : ScanSettings) (file : Path) (m : Text), settings.marker <:+: m → '\n' ∉ m →
        m.getLast? ≠ some '\r' → '\n' ∉ settings.matchPrefix →
        let log := m ++ ['\n'] ++ settings.matchPrefix ++ t ++ ['\n']
        let scan := run settings file { content := Utf8.encode log } .unlimited
        scan.sink.written = Utf8.encode (t ++ ['\n']) ∧
          ∃ s, scan.result = .ok s ∧ ∀ p, p ∈ s.storePaths ↔ p ∈ ps := by
  intro t
  refine ⟨Payload.render_eq ps, Payload.parse_render _, ?_⟩
  intro settings file m hm hfeed hreturn hfront log scan
  have hending : String.utf8EncodeChar '\n' = [lineFeed] := rfl
  have hlog : Utf8.encode log = logOf settings m ([t].map Utf8.encode) := by
    simp [log, logOf, hending]
  have hline : '\n' ∉ settings.matchPrefix ++ t := by
    rw [List.mem_append, not_or]
    exact ⟨hfront, Payload.lineFeed_not_mem_render ps⟩
  have hparse : Payload.parse t = .ok (ps.map fun p => ⟨⟨p⟩⟩) := Payload.parse_render _
  have hpaths : storePaths t = ps := by
    simp only [storePaths, hparse, List.map_map]
    exact List.map_id ps
  have hrun := run_logOf file hm hfeed hreturn (List.forall_mem_singleton.2 hline)
    (List.forall_mem_singleton.2 (Payload.trim_render _))
    (List.forall_mem_singleton.2 ⟨_, hparse⟩)
  rw [← hlog] at hrun
  obtain ⟨hwritten, hresult⟩ := hrun
  refine ⟨hwritten.trans ?_, _, hresult, fun p => ?_⟩
  · simp [payloadBytes, hending]
  · rw [List.flatMap_singleton, hpaths, SortedSet.mem_ofList]

/-- Blanks stay within a path; quotes, backslashes and control characters are escaped. -/
theorem run_render_escaped :
    let ps : List Text := ["é\u2028 ".toList, "\"\\\n\x01".toList]
    let t := Payload.render (ps.map fun p => ⟨⟨p⟩⟩)
    let settings : ScanSettings := ⟨"ready".toList, "> ".toList⟩
    let log := "is ready".toList ++ ['\n'] ++ settings.matchPrefix ++ t ++ ['\n']
    let scan := run settings [] { content := Utf8.encode log } .unlimited
    Json.encode "\"\\\n\x01".toList = "\"\\\"\\\\\\n\\u0001\"".toList ∧
      scan.sink.written = Utf8.encode (t ++ ['\n']) ∧
      ∃ s, scan.result = .ok s ∧ ∀ p, p ∈ s.storePaths ↔ p ∈ ps := by
  intro ps t settings log scan
  obtain ⟨-, -, hscan⟩ := run_render ps
  exact ⟨by decide +kernel,
    hscan settings [] "is ready".toList (by decide) (by decide) (by decide) (by decide)⟩

end Scan

end StoreLog
