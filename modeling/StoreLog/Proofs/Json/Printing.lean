-- SUMMARY: Printed values are texts of the grammar.
import StoreLog.Json.Printer
import StoreLog.Proofs.Json.Reading
import Mathlib.Data.List.Forall2

/-!
# What is printed can be read

A printed string denotes the text that it was made from, whatever characters the text has. An
array or an object that is printed denotes itself if each value in it does, one level less
deep.
-/

namespace StoreLog.Json

variable {s t : Text} {c : Char}

/-! ## Strings -/

/-- The number of a control character is read back from its four digits. -/
theorem hexNumber?_hexDigit : ∀ n < 0x20,
    hexNumber? ['0', '0', hexDigit (n / 16), hexDigit (n % 16)] = some n := by
  decide

/-- A control character that is written by its number. -/
theorem isEscape_control (hc : c.toNat < 0x20) :
    IsEscape ['u', '0', '0', hexDigit (c.toNat / 16), hexDigit (c.toNat % 16)] c := by
  have hunit := hexNumber?_eq_some_iff.1 (hexNumber?_hexDigit c.toNat hc)
  have hescape := IsEscape.unit hunit (.inl (Nat.lt_trans hc (by decide)))
  rwa [Char.ofNat_toNat] at hescape

theorem isContent_escape {d e : Char} (hc : c = e) (hd : IsShort d e) (h : IsContent s t) :
    IsContent (['\\', d] ++ s) (c :: t) :=
  .escape (.short (hc ▸ hd)) h

/-- Each character is written as it may stand between quotes. -/
theorem isContent_encodeChar_append (c : Char) (h : IsContent s t) :
    IsContent (encodeChar c ++ s) (c :: t) := by
  unfold encodeChar
  split_ifs with hq hb hbackspace hpage hfeed hreturn htab hcontrol
  · exact isContent_escape hq .quote h
  · exact isContent_escape hb .backslash h
  · exact isContent_escape hbackspace .backspace h
  · exact isContent_escape hpage .page h
  · exact isContent_escape hfeed .feed h
  · exact isContent_escape hreturn .carriage h
  · exact isContent_escape htab .tab h
  · exact .escape (isEscape_control hcontrol) h
  · exact .plain hq hb (Nat.le_of_not_lt hcontrol) h

theorem isContent_flatMap_encodeChar (s : Text) : IsContent (s.flatMap encodeChar) s := by
  induction s with
  | nil => exact .nil
  | cons c s ih => exact isContent_encodeChar_append c ih

theorem isString_encode (s : Text) : IsString (encode s) s :=
  .mk (isContent_flatMap_encodeChar s)

/-- A line feed is never written as it is. -/
theorem lineFeed_not_mem_encodeChar (c : Char) : '\n' ∉ encodeChar c := by
  have hcontrols : ∀ n < 0x20,
      '\n' ∉ ['\\', 'u', '0', '0', hexDigit (n / 16), hexDigit (n % 16)] := by
    decide
  unfold encodeChar
  split_ifs with hq hb hbackspace hpage hfeed hreturn htab hcontrol
  any_goals decide
  · exact hcontrols c.toNat hcontrol
  · exact fun h => hfeed (List.mem_singleton.1 h).symm

theorem lineFeed_not_mem_encode (s : Text) : '\n' ∉ encode s := by
  simp [encode, lineFeed_not_mem_encodeChar]

/-! ## Lists -/

section

variable {α : Type} {one : Text → α → Prop}

theorem separated_commaSeparated {u : Text} {us : List Text} {x : α} {xs : List α}
    (h : List.Forall₂ one (u :: us) (x :: xs)) :
    Separated one (commaSeparated (u :: us)) (x :: xs) := by
  induction us generalizing u x xs with
  | nil =>
    obtain ⟨hx, hxs⟩ := List.forall₂_cons.1 h
    obtain rfl := List.forall₂_nil_left_iff.1 hxs
    exact .single hx
  | cons v us ih =>
    obtain ⟨hx, hxs⟩ := List.forall₂_cons.1 h
    cases hxs with
    | cons hy hys =>
      rw [commaSeparated, List.append_assoc]
      exact .cons hx (ih (.cons hy hys))

theorem listed_commaSeparated {us : List Text} {xs : List α} (h : List.Forall₂ one us xs) :
    Listed one (commaSeparated us) xs := by
  cases h with
  | nil => exact .empty blanks_nil
  | cons hx hxs => exact .things (separated_commaSeparated (.cons hx hxs))

end

theorem not_mem_commaSeparated {us : List Text} (hc : c ≠ ',') (h : ∀ u ∈ us, c ∉ u) :
    c ∉ commaSeparated us := by
  induction us using commaSeparated.induct with
  | case1 => exact List.not_mem_nil
  | case2 u => exact h u (List.mem_singleton_self u)
  | case3 u v us ih =>
    rw [List.forall_mem_cons] at h
    rw [commaSeparated, List.mem_append, List.mem_append, List.mem_singleton, not_or, not_or]
    exact ⟨⟨h.1, hc⟩, ih h.2⟩

/-! ## Values -/

theorem renderItems_eq_map (vs : List Value) : renderItems vs = vs.map render := by
  induction vs with
  | nil => rfl
  | cons v vs ih => rw [renderItems, ih, List.map_cons]

theorem renderMembers_eq_map (ms : List (Text × Value)) :
    renderMembers ms = ms.map fun m => encode m.1 ++ [':'] ++ render m.2 := by
  induction ms with
  | nil => rfl
  | cons m ms ih => rw [renderMembers, ih, List.map_cons]

theorem isValue_render_string (depth : Nat) (s : Text) :
    IsValue depth (render (.string s)) (.string s) := by
  have h : IsScalar (render (.string s)) (.string s) := by
    rw [render]
    exact .string (isString_encode s)
  cases depth with
  | zero => exact h
  | succ depth => exact .inl h

variable {depth : Nat}

theorem isValue_render_array {vs : List Value} (h : ∀ v ∈ vs, IsValue depth (render v) v) :
    IsValue (depth + 1) (render (.array vs)) (.array vs) := by
  have hitems : List.Forall₂ (Padded (IsValue depth)) (renderItems vs) vs := by
    rw [renderItems_eq_map, List.forall₂_map_left_iff, List.forall₂_same]
    exact fun v hv => .of_item (h v hv)
  rw [render]
  exact .inr (.array (listed_commaSeparated hitems))

theorem isMember_render {name : Text} {v : Value} (h : IsValue depth (render v) v) :
    IsMember (IsValue depth) (encode name ++ [':'] ++ render v) (name, v) := by
  have hmember := IsMember.mk blanks_nil (isString_encode name) blanks_nil (.of_item h)
  rwa [List.nil_append, List.nil_append, ← List.singleton_append, ← List.append_assoc] at hmember

theorem isValue_render_object {ms : List (Text × Value)}
    (h : ∀ m ∈ ms, IsValue depth (render m.2) m.2) :
    IsValue (depth + 1) (render (.object ms)) (.object ms) := by
  have hmembers : List.Forall₂ (IsMember (IsValue depth)) (renderMembers ms) ms := by
    rw [renderMembers_eq_map, List.forall₂_map_left_iff, List.forall₂_same]
    exact fun m hm => isMember_render (h m hm)
  rw [render]
  exact .inr (.object (listed_commaSeparated hmembers))

end StoreLog.Json
