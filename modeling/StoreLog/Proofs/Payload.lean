-- SUMMARY: The verdict on a payload, by the JSON value that it denotes.
import StoreLog.Payload
import StoreLog.Proofs.Json.Reading
import Mathlib.Data.List.Forall2

/-!
# Which payloads are accepted

Which JSON values list records, said without a decoder. A structure with one field stands
in a payload as an object with that field, as its printer writes it, or as an array of the
field's value alone. Every payload is then of one of four kinds, and `Payload.parse` tells
them apart.
-/

namespace StoreLog

/-! ## Records -/

/-- The last member of that name has the value `v`. -/
def Json.Counts (members : List (Text × Json.Value)) (name : Text) (v : Json.Value) : Prop :=
  ∃ before after, members = before ++ (name, v) :: after ∧ ∀ m ∈ after, m.1 ≠ name

/-- A structure with one field, as an object or as an array of the field's value alone. -/
inductive IsSingle {α : Type} (field : String) (ofField : Json.Value → α → Prop) :
    Json.Value → α → Prop
  | object {members : List (Text × Json.Value)} {v : Json.Value} {a : α}
      (h : Json.Counts members field.toList v) (hv : ofField v a) :
      IsSingle field ofField (.object members) a
  | array {v : Json.Value} {a : α} (hv : ofField v a) : IsSingle field ofField (.array [v]) a

def IsStore : Json.Value → StoreRef → Prop :=
  IsSingle "path" fun v s => v = .string s.path

def IsRecord : Json.Value → PhraseMatch → Prop :=
  IsSingle "store" fun v m => IsStore v m.store

/-- An array of records, in order. -/
inductive ListsRecords : Json.Value → List PhraseMatch → Prop
  | mk {records : List Json.Value} {ms : List PhraseMatch} (h : List.Forall₂ IsRecord records ms) :
      ListsRecords (.array records) ms

theorem Json.lookup?_eq_some_iff {members : List (Text × Json.Value)} {name : Text}
    {v : Json.Value} : Json.lookup? members name = some v ↔ Json.Counts members name v := by
  simp only [Json.lookup?, Option.map_eq_some_iff, List.find?_eq_some_iff_append,
    decide_eq_true_eq, Bool.not_eq_true', decide_eq_false_iff_not]
  constructor
  · rintro ⟨⟨_, _⟩, ⟨rfl, after, before, hreverse, hafter⟩, rfl⟩
    refine ⟨before.reverse, after.reverse, ?_, ?_⟩
    · rw [← List.reverse_reverse members, hreverse]
      simp
    · intro m hm
      exact hafter m (List.mem_reverse.1 hm)
  · rintro ⟨before, after, rfl, hafter⟩
    refine ⟨(name, v), ⟨rfl, after.reverse, before.reverse, by simp, ?_⟩, rfl⟩
    intro m hm
    exact hafter m (List.mem_reverse.1 hm)

theorem decodeSingle_eq_ok_iff {α β : Type} {structName field : String}
    {decode : Json.Value → Except Mismatch α} {ofField : Json.Value → β → Prop} {get : β → α}
    (hdecode : ∀ v b, decode v = .ok (get b) ↔ ofField v b) {v : Json.Value} {b : β} :
    decodeSingle structName field decode v = .ok (get b) ↔ IsSingle field ofField v b := by
  constructor
  · intro h
    unfold decodeSingle at h
    split at h
    · split at h
      · next hlookup => exact .object (Json.lookup?_eq_some_iff.1 hlookup) ((hdecode _ _).1 h)
      · cases h
    · cases h
    · split at h
      · cases h
      · next hv =>
        split at h
        · next hnil =>
          rw [Except.ok.inj h] at hv
          cases List.isEmpty_iff.1 hnil
          exact .array ((hdecode _ _).1 hv)
        · cases h
    · cases h
  · intro h
    cases h with
    | object hcounts hv =>
      rw [decodeSingle, Json.lookup?_eq_some_iff.2 hcounts]
      exact (hdecode _ _).2 hv
    | array hv =>
      rw [decodeSingle, (hdecode _ _).2 hv]
      rfl

theorem decodeString_eq_ok_iff {v : Json.Value} {p : Text} :
    decodeString v = .ok p ↔ v = .string p := by
  cases v <;> simp [decodeString]

/-- What is decoded and then put into a structure, out of which `get` takes it. -/
theorem map_eq_ok_iff {α β : Type} {x : Except Mismatch α} {mk : α → β} (get : β → α)
    (hmk : ∀ a b, mk a = b ↔ a = get b) {b : β} : x.map mk = .ok b ↔ x = .ok (get b) := by
  cases x with
  | error e => simp [Except.map]
  | ok a => simp [Except.map, hmk]

theorem StoreRef.decode_eq_ok_iff {v : Json.Value} {s : StoreRef} :
    StoreRef.decode v = .ok s ↔ IsStore v s := by
  have hmk : ∀ p s, StoreRef.mk p = s ↔ p = s.path := by
    rintro p ⟨_⟩
    rw [StoreRef.mk.injEq]
  rw [decode, map_eq_ok_iff _ hmk]
  exact decodeSingle_eq_ok_iff fun v s => decodeString_eq_ok_iff

namespace PhraseMatch

theorem decode_eq_ok_iff {v : Json.Value} {m : PhraseMatch} :
    decode v = .ok m ↔ IsRecord v m := by
  have hmk : ∀ s m, PhraseMatch.mk s = m ↔ s = m.store := by
    rintro s ⟨_⟩
    rw [PhraseMatch.mk.injEq]
  rw [decode, map_eq_ok_iff _ hmk]
  exact decodeSingle_eq_ok_iff fun v m => StoreRef.decode_eq_ok_iff

theorem decodeAll_eq_ok_iff {vs : List Json.Value} {ms : List PhraseMatch} :
    decodeAll vs = .ok ms ↔ List.Forall₂ IsRecord vs ms := by
  induction vs generalizing ms with
  | nil =>
    rw [List.forall₂_nil_left_iff, decodeAll, Except.ok.injEq]
    exact eq_comm
  | cons v vs ih =>
    constructor
    · intro h
      rw [decodeAll] at h
      cases hv : decode v with
      | error e =>
        rw [hv] at h
        cases h
      | ok m =>
        rw [hv] at h
        cases hvs : decodeAll vs with
        | error e =>
          rw [hvs] at h
          cases h
        | ok ms' =>
          rw [hvs] at h
          cases h
          exact .cons (decode_eq_ok_iff.1 hv) (ih.1 hvs)
    · intro h
      cases h with
      | cons hv hvs =>
        rw [decodeAll, decode_eq_ok_iff.2 hv, ih.2 hvs]
        rfl

theorem decodeList_eq_ok_iff {v : Json.Value} {ms : List PhraseMatch} :
    decodeList v = .ok ms ↔ ListsRecords v ms := by
  constructor
  · intro h
    unfold decodeList at h
    split at h
    · exact .mk (decodeAll_eq_ok_iff.1 h)
    · cases h
  · rintro ⟨h⟩
    exact decodeAll_eq_ok_iff.2 h

end PhraseMatch

/-! ## Payloads -/

namespace Payload

theorem ofValue_of_listsRecords {first : Json.Value} {ms : List PhraseMatch}
    (h : ListsRecords first ms) (others : List Json.Value) :
    ofValue (.array (first :: others)) = .ok ms := by
  rw [ofValue, PhraseMatch.decodeList_eq_ok_iff.2 h]
  rfl

theorem ofValue_of_not_listsRecords {first : Json.Value} (h : ¬∃ ms, ListsRecords first ms)
    (others : List Json.Value) :
    ∃ e, ofValue (.array (first :: others)) = .error (.invalidRecord e) := by
  rw [ofValue]
  cases hlist : PhraseMatch.decodeList first with
  | error e => exact ⟨e, rfl⟩
  | ok ms => exact absurd ⟨ms, PhraseMatch.decodeList_eq_ok_iff.1 hlist⟩ h

theorem ofValue_of_ne_cons {v : Json.Value} (h : ∀ first others, v ≠ .array (first :: others)) :
    ∃ reason, ofValue v = .error (.unexpectedShape reason) := by
  unfold ofValue
  split
  · exact ⟨_, rfl⟩
  · exact absurd rfl (h _ _)
  · exact ⟨_, rfl⟩

/-- The kinds of values that a payload can denote, and what each is taken for. -/
inductive Verdict : Json.Value → Except PayloadError (List PhraseMatch) → Prop
  | records {first : Json.Value} {others : List Json.Value} {ms : List PhraseMatch}
      (h : ListsRecords first ms) : Verdict (.array (first :: others)) (.ok ms)
  | noRecords {first : Json.Value} {others : List Json.Value} (e : Mismatch)
      (h : ¬∃ ms, ListsRecords first ms) :
      Verdict (.array (first :: others)) (.error (.invalidRecord e))
  | noArray {v : Json.Value} (reason : String) (h : ∀ first others, v ≠ .array (first :: others)) :
      Verdict v (.error (.unexpectedShape reason))

theorem verdict_ofValue (v : Json.Value) : Verdict v (ofValue v) := by
  by_cases hv : ∃ first others, v = .array (first :: others)
  · obtain ⟨first, others, rfl⟩ := hv
    by_cases hlist : ∃ ms, ListsRecords first ms
    · obtain ⟨ms, hms⟩ := hlist
      rw [ofValue_of_listsRecords hms]
      exact .records hms
    · obtain ⟨e, he⟩ := ofValue_of_not_listsRecords hlist others
      rw [he]
      exact .noRecords e hlist
  · have hne : ∀ first others, v ≠ .array (first :: others) :=
      fun first others heq => hv ⟨first, others, heq⟩
    obtain ⟨reason, hreason⟩ := ofValue_of_ne_cons hne
    rw [hreason]
    exact .noArray reason hne

theorem parse_of_isText {s : Text} {v : Json.Value} (h : Json.IsText s v) :
    parse s = ofValue v := by
  rw [parse, Json.parse_eq_ok_iff.2 h]

theorem parse_of_not_isText {s : Text} (h : ¬∃ v, Json.IsText s v) :
    ∃ e, parse s = .error (.invalidJson e) := by
  obtain ⟨e, he⟩ := Json.exists_parse_eq_error_iff.2 h
  exact ⟨e, by rw [parse, he]⟩

/-- A payload that is not refused as no JSON text denotes a value, and its verdict is that
of the value. -/
theorem verdict_of_parse {s : Text} {r : Except PayloadError (List PhraseMatch)}
    (h : parse s = r) (hr : ∀ e, r ≠ .error (.invalidJson e)) :
    ∃ v, Json.IsText s v ∧ Verdict v r := by
  by_cases hs : ∃ v, Json.IsText s v
  · obtain ⟨v, hv⟩ := hs
    rw [parse_of_isText hv] at h
    exact ⟨v, hv, h ▸ verdict_ofValue v⟩
  · obtain ⟨e, he⟩ := parse_of_not_isText hs
    exact absurd (h.symm.trans he) (hr e)

theorem parse_eq_ok_iff {s : Text} {ms : List PhraseMatch} :
    parse s = .ok ms ↔
      ∃ first others, Json.IsText s (.array (first :: others)) ∧ ListsRecords first ms := by
  constructor
  · intro h
    obtain ⟨_, hv, ⟨hms⟩⟩ := verdict_of_parse h (fun _ => nofun)
    exact ⟨_, _, hv, hms⟩
  · rintro ⟨first, others, hv, hms⟩
    rw [parse_of_isText hv]
    exact ofValue_of_listsRecords hms others

theorem parse_eq_invalidJson_iff {s : Text} :
    (∃ e, parse s = .error (.invalidJson e)) ↔ ¬∃ v, Json.IsText s v := by
  constructor
  · rintro ⟨e, he⟩ ⟨v, hv⟩
    have hverdict := verdict_ofValue v
    rw [← parse_of_isText hv, he] at hverdict
    cases hverdict
  · exact parse_of_not_isText

theorem parse_eq_unexpectedShape_iff {s : Text} :
    (∃ reason, parse s = .error (.unexpectedShape reason)) ↔
      ∃ v, Json.IsText s v ∧ ∀ first others, v ≠ .array (first :: others) := by
  constructor
  · rintro ⟨reason, h⟩
    obtain ⟨v, hv, hverdict⟩ := verdict_of_parse h (fun _ => nofun)
    cases hverdict with
    | noArray _ hne => exact ⟨v, hv, hne⟩
  · rintro ⟨v, hv, hne⟩
    rw [parse_of_isText hv]
    exact ofValue_of_ne_cons hne

theorem parse_eq_invalidRecord_iff {s : Text} :
    (∃ e, parse s = .error (.invalidRecord e)) ↔
      ∃ first others, Json.IsText s (.array (first :: others)) ∧ ¬∃ ms, ListsRecords first ms := by
  constructor
  · rintro ⟨e, h⟩
    obtain ⟨v, hv, hverdict⟩ := verdict_of_parse h (fun _ => nofun)
    cases hverdict with
    | noRecords _ hnot => exact ⟨_, _, hv, hnot⟩
  · rintro ⟨first, others, hv, hnot⟩
    rw [parse_of_isText hv]
    exact ofValue_of_not_listsRecords hnot others

/-- Which payloads are accepted, as which records, and why the others are refused. -/
theorem parse_verdicts (s : Text) :
    (∀ ms, parse s = .ok ms ↔
      ∃ first others, Json.IsText s (.array (first :: others)) ∧ ListsRecords first ms) ∧
    ((∃ e, parse s = .error (.invalidJson e)) ↔ ¬∃ v, Json.IsText s v) ∧
    ((∃ reason, parse s = .error (.unexpectedShape reason)) ↔
      ∃ v, Json.IsText s v ∧ ∀ first others, v ≠ .array (first :: others)) ∧
    ((∃ e, parse s = .error (.invalidRecord e)) ↔
      ∃ first others, Json.IsText s (.array (first :: others)) ∧ ¬∃ ms, ListsRecords first ms) :=
  ⟨fun _ => parse_eq_ok_iff, parse_eq_invalidJson_iff, parse_eq_unexpectedShape_iff,
    parse_eq_invalidRecord_iff⟩

/-! ## Positional records -/

/-- An object with a store in it that is an object with a path in it. -/
def IsObjectRecord (v : Json.Value) (m : PhraseMatch) : Prop :=
  ∃ members fields, v = .object members ∧ Json.Counts members "store".toList (.object fields) ∧
    Json.Counts fields "path".toList (.string m.store.path)

/-- A payload whose record and store are arrays of one item each. -/
def positional : Text :=
  "[[[[\"x\"]]]]".toList

theorem isText_positional :
    Json.IsText positional (.array [.array [.array [.array [.string ['x']]]]]) := by
  have hx : Json.IsContent ['x'] ['x'] := .plain (by decide) (by decide) (by decide) .nil
  have hstring : Json.IsValue 123 ['"', 'x', '"'] (.string ['x']) := .inl (.string (.mk hx))
  exact .of_item (Json.isValue_singleton (Json.isValue_singleton (Json.isValue_singleton
    (Json.isValue_singleton hstring))))

/-- Records are not only read from objects. -/
theorem not_only_objects :
    ¬∀ s ms, parse s = .ok ms ↔
      ∃ records others, Json.IsText s (.array (.array records :: others)) ∧
        List.Forall₂ IsObjectRecord records ms := by
  intro h
  have hparse : parse positional = .ok [⟨⟨['x']⟩⟩] := by
    rw [parse_of_isText isText_positional]
    rfl
  obtain ⟨records, others, hv, hms⟩ := (h _ _).1 hparse
  cases hv.unique isText_positional
  cases hms with
  | cons hrecord _ =>
    obtain ⟨_, _, hobject, _⟩ := hrecord
    cases hobject

end Payload

end StoreLog
