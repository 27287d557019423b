-- SUMMARY: Soundness of validation, its warnings, and that it settles nothing twice.
import StoreLog.Config.Toml
import StoreLog.Proofs.Text.Trim
import StoreLog.Proofs.Text.Utf8

/-!
# What a raw configuration is settled to

Each setting is settled by itself: it is what is given for it if that is acceptable, and
its default otherwise. The defaults are acceptable as well, so a settled configuration has
acceptable values throughout, and stays as it is when it is written down and validated
again.
-/

namespace StoreLog

/-! ## Acceptable values -/

namespace Text

variable {s : Text}

/-- Not only blanks. -/
def IsName (s : Text) : Prop :=
  ∃ c ∈ s, isBlank c = false

/-- A dot, and more than that. -/
def IsExtension (s : Text) : Prop :=
  s.head? = some '.' ∧ 1 < Utf8.size s

theorem isName_iff : s.IsName ↔ trim s ≠ [] := by
  rw [ne_eq, trim_eq_nil_iff, IsName]
  simp

theorem isExtension_iff : s.IsExtension ↔ ∃ r, r ≠ [] ∧ s = '.' :: r := by
  have hsize (r : Text) : 1 < Utf8.size ('.' :: r) ↔ r ≠ [] := by
    have hdot : Utf8.size ('.' :: r) = (Utf8.encode r).length + 1 := by
      simp [Utf8.size, Utf8.encodeChar_ascii]
    rw [hdot, Nat.lt_add_left_iff_pos, List.length_pos_iff, ne_eq, Utf8.encode_eq_nil_iff]
  constructor
  · rintro ⟨hhead, hlong⟩
    obtain ⟨r, rfl⟩ := List.head?_eq_some_iff.1 hhead
    exact ⟨r, (hsize r).1 hlong, rfl⟩
  · rintro ⟨r, hr, rfl⟩
    exact ⟨rfl, (hsize r).2 hr⟩

/-- A name that ends with an extension is longer than a dot. -/
theorem IsExtension.append_ne (h : s.IsExtension) (stem : Text) :
    stem ++ s ≠ [] ∧ stem ++ s ≠ ['.'] := by
  obtain ⟨r, hr, rfl⟩ := isExtension_iff.1 h
  refine ⟨by simp, fun heq => hr ?_⟩
  have hlength := congrArg List.length heq
  simp only [List.length_append, List.length_cons, List.length_nil] at hlength
  exact List.eq_nil_of_length_eq_zero (by omega)

end Text

/-- The name of a level, in any mix of cases. Of all characters, only letters of ASCII have the
letters of these names as their lower case. -/
def Level.IsCalled (l : Level) (s : Text) : Prop :=
  s.map Char.toLower = l.name.toList.map Char.toLower

theorem Level.isSome_ofName?_iff {s : Text} :
    (ofName? s).isSome = true ↔ ∃ l : Level, l.IsCalled s := by
  rw [ofName?, List.find?_isSome]
  constructor
  · rintro ⟨l, -, h⟩
    exact ⟨l, (eq_of_beq h).symm⟩
  · rintro ⟨l, h⟩
    refine ⟨l, ?_, beq_iff_eq.2 h.symm⟩
    cases l <;> decide

/-! ## Settings -/

/-- A configuration as it can be written down, its output directory as the text that the bytes
of the path spell. -/
def Config.raw (c : Config) : RawConfig where
  dump := {
    program := some c.dump.program
    args := some c.dump.args
    outputDir := Utf8.decode c.dump.outputDir
    storeExtension := some c.dump.storeExtension
    dataExtension := some c.dump.dataExtension }
  logs := {
    marker := some c.scan.marker
    matchPrefix := some c.scan.matchPrefix }
  logging := { level := c.logLevel }

/-- The settings that not every value is acceptable for. -/
inductive Setting
  | program
  | outputDir
  | storeExtension
  | dataExtension
  | marker
  | matchPrefix
  | level
deriving DecidableEq, Repr

namespace Setting

/-- All of them, by their sections and their places in these. -/
def all : List Setting :=
  [.program, .outputDir, .storeExtension, .dataExtension, .marker, .matchPrefix, .level]

def rule : Setting → Rule
  | .program => .program
  | .outputDir => .outputDir
  | .storeExtension => .storeExtension
  | .dataExtension => .dataExtension
  | .marker => .marker
  | .matchPrefix => .matchPrefix
  | .level => .level

/-- What a raw configuration gives for a setting. -/
def given (raw : RawConfig) : Setting → Option Text
  | .program => raw.dump.program
  | .outputDir => raw.dump.outputDir
  | .storeExtension => raw.dump.storeExtension
  | .dataExtension => raw.dump.dataExtension
  | .marker => raw.logs.marker
  | .matchPrefix => raw.logs.matchPrefix
  | .level => raw.logging.level

def Accepts : Setting → Text → Prop
  | .program, s => s.IsName
  | .outputDir, s | .marker, s | .matchPrefix, s => s ≠ []
  | .storeExtension, s | .dataExtension, s => s.IsExtension
  | .level, s => ∃ l : Level, l.IsCalled s

theorem rule_accepts_iff (k : Setting) (s : Text) : k.rule.accepts s = true ↔ k.Accepts s := by
  have hne : (!s.isEmpty) = true ↔ s ≠ [] := by simp
  have hextension : Rule.isExtension s = true ↔ s.IsExtension := by
    rw [Text.isExtension_iff]
    cases s with
    | nil => simp [Rule.isExtension]
    | cons c s => simp [Rule.isExtension, List.length_pos_iff, and_comm]
  cases k with
  | program =>
    refine Iff.trans ?_ Text.isName_iff.symm
    simp [rule, Rule.program]
  | outputDir => exact hne
  | storeExtension => exact hextension
  | dataExtension => exact hextension
  | marker => exact hne
  | matchPrefix => exact hne
  | level => exact Level.isSome_ofName?_iff

instance (k : Setting) (s : Text) : Decidable (k.Accepts s) :=
  decidable_of_iff _ (k.rule_accepts_iff s)

/-- What a setting is if nothing is given for it. -/
def default (k : Setting) : Option Text :=
  k.given Config.default.raw

/-- What a setting is settled to. -/
def settled (k : Setting) : Option Text → Option Text
  | some s => if k.Accepts s then some s else k.default
  | none => k.default

/-- What is said about a value that is given. -/
def warnings (k : Setting) : Option Text → List ConfigWarning
  | some s =>
    if k.Accepts s then []
    else [.value (.outOfRange k.rule.field (String.ofList s) k.rule.expected)]
  | none => []

variable {k : Setting} {g : Option Text} {s : Text}

theorem accepts_of_default (h : k.default = some s) : k.Accepts s := by
  cases k with
  | outputDir =>
    have hdir : Setting.default .outputDir = some "out".toList := Utf8.decode_encode _
    obtain rfl := Option.some.inj (hdir.symm.trans h)
    decide
  | level => cases h
  | program | storeExtension | dataExtension | marker | matchPrefix =>
    obtain rfl := Option.some.inj h
    decide

/-- Given or not, what a setting comes to is acceptable. -/
theorem accepts_of_settled (h : k.settled g = some s) : k.Accepts s := by
  cases g with
  | none => exact accepts_of_default h
  | some r =>
    rw [settled] at h
    split at h
    · next hr => exact Option.some.inj h ▸ hr
    · exact accepts_of_default h

/-- What is settled once is settled for good, and without a warning. -/
theorem settled_settled (k : Setting) (g : Option Text) :
    k.settled (k.settled g) = k.settled g := by
  cases h : k.settled g with
  | none =>
    cases g with
    | none => exact h
    | some r =>
      rw [settled] at h
      split at h
      · cases h
      · exact h
  | some s => rw [settled, if_pos (accepts_of_settled h)]

theorem warnings_settled (k : Setting) (g : Option Text) : k.warnings (k.settled g) = [] := by
  cases h : k.settled g with
  | none => rfl
  | some s => rw [warnings, if_pos (accepts_of_settled h)]

theorem settled_eq_or (k : Setting) (g : Option Text) :
    k.settled g = (k.rule.accept? g).or k.default := by
  cases g with
  | none => rfl
  | some s =>
    rw [settled, Rule.accept?, Option.filter_some]
    simp only [rule_accepts_iff]
    split <;> rfl

theorem map_complaints (k : Setting) (g : Option Text) :
    (k.rule.complaints g).map .value = k.warnings g := by
  cases g with
  | none => rfl
  | some s =>
    simp only [warnings, Rule.complaints, rule_accepts_iff]
    split <;> rfl

end Setting

/-! ## Configurations -/

/-- A configuration whose values are all acceptable. -/
structure Config.IsSound (c : Config) : Prop where
  program : c.dump.program.IsName
  outputDir : c.dump.outputDir ≠ []
  storeExtension : c.dump.storeExtension.IsExtension
  dataExtension : c.dump.dataExtension.IsExtension
  marker : c.scan.marker ≠ []
  matchPrefix : c.scan.matchPrefix ≠ []
  logLevel : ∀ s ∈ c.logLevel, ∃ l : Level, l.IsCalled s

/-- The bytes of the output directory spell a text, so it can be written down like every other
setting. -/
def Config.IsWritable (c : Config) : Prop :=
  ∃ dir, c.dump.outputDir = Path.ofText dir

theorem Config.eq_of_raw_eq {c d : Config} (hc : c.IsWritable) (hd : d.IsWritable)
    (h : c.raw = d.raw) : c = d := by
  obtain ⟨⟨_, _, _, _, _⟩, ⟨_, _⟩, _⟩ := c
  obtain ⟨⟨_, _, _, _, _⟩, ⟨_, _⟩, _⟩ := d
  obtain ⟨p, rfl⟩ := hc
  obtain ⟨q, rfl⟩ := hd
  simpa [raw, Path.ofText] using h

theorem RawConfig.ext_given {raw other : RawConfig} (h : ∀ k : Setting, k.given raw = k.given other)
    (hargs : raw.dump.args = other.dump.args) : raw = other := by
  obtain ⟨⟨_, _, _, _, _⟩, ⟨_, _⟩, ⟨_⟩⟩ := raw
  obtain ⟨⟨_, _, _, _, _⟩, ⟨_, _⟩, ⟨_⟩⟩ := other
  obtain rfl := h .program
  obtain rfl := h .outputDir
  obtain rfl := h .storeExtension
  obtain rfl := h .dataExtension
  obtain rfl := h .marker
  obtain rfl := h .matchPrefix
  obtain rfl := h .level
  obtain rfl := hargs
  rfl

namespace RawConfig

theorem isWritable_settings (raw : RawConfig) : raw.settings.IsWritable := by
  rw [Config.IsWritable, settings]
  cases Rule.outputDir.accept? raw.dump.outputDir with
  | none => exact ⟨_, rfl⟩
  | some dir => exact ⟨dir, rfl⟩

/-- No setting depends on what is given for another. -/
theorem given_settings (raw : RawConfig) (k : Setting) :
    k.given raw.settings.raw = k.settled (k.given raw) := by
  rw [k.settled_eq_or]
  cases k with
  | outputDir =>
    simp only [Setting.given, Config.raw, settings, Setting.rule, Setting.default]
    cases Rule.outputDir.accept? raw.dump.outputDir with
    | none => rfl
    | some dir => exact Utf8.decode_encode dir
  | level => exact (Option.or_none ..).symm
  | program | storeExtension | dataExtension | marker | matchPrefix =>
    exact (Option.or_some ..).symm

theorem map_complaints (raw : RawConfig) :
    raw.complaints.map .value = Setting.all.flatMap fun k => k.warnings (k.given raw) := by
  simp only [← Setting.map_complaints, ← List.map_flatMap]
  simp [complaints, Setting.all, Setting.rule, Setting.given]

theorem isSound_settings (raw : RawConfig) : raw.settings.IsSound := by
  have h {k : Setting} {s : Text} (hs : k.given raw.settings.raw = some s) : k.Accepts s :=
    Setting.accepts_of_settled ((given_settings raw k).symm.trans hs)
  obtain ⟨dir, hdir⟩ := isWritable_settings raw
  exact {
    program := h (k := .program) rfl
    outputDir := by
      have hgiven : Setting.given raw.settings.raw .outputDir = some dir := by
        simp [Setting.given, Config.raw, hdir, Path.ofText]
      rw [hdir, Path.ofText, ne_eq, Utf8.encode_eq_nil_iff]
      exact h hgiven
    storeExtension := h (k := .storeExtension) rfl
    dataExtension := h (k := .dataExtension) rfl
    marker := h (k := .marker) rfl
    matchPrefix := h (k := .matchPrefix) rfl
    logLevel := fun s hs => h (k := .level) hs }

theorem settings_raw_settings (raw : RawConfig) : raw.settings.raw.settings = raw.settings := by
  refine Config.eq_of_raw_eq (isWritable_settings _) (isWritable_settings _) ?_
  refine ext_given (fun k => ?_) rfl
  rw [given_settings, given_settings, k.settled_settled]

/-- Every configuration is validated to a sound one. Each setting is settled by what is given for
it, the arguments are taken as they are, and there is one warning for each value that is given
but not acceptable, in the order of the settings. Written down and validated again, the
configuration is the same, without a warning. -/
theorem validate_settles (raw : RawConfig) :
    let config := raw.validate.1
    config.IsSound ∧
      (∀ k : Setting, k.given config.raw = k.settled (k.given raw)) ∧
      config.dump.args = raw.dump.args.getD DumpConfig.default.args ∧
      raw.validate.2 = Setting.all.flatMap (fun k => k.warnings (k.given raw)) ∧
      config.raw.validate = (config, []) := by
  intro config
  have hagain : config.raw.validate.2 = [] := by
    refine (map_complaints config.raw).trans (List.flatMap_eq_nil_iff.2 fun k _ => ?_)
    have hsettled : k.given config.raw = k.settled (k.given raw) := given_settings raw k
    rw [hsettled, k.warnings_settled]
  refine ⟨isSound_settings raw, given_settings raw, rfl, map_complaints raw, ?_⟩
  exact Prod.ext (settings_raw_settings raw) hagain

/-! The order of the settings is that of the sections and their fields; the arguments alone have
no rule. -/

example :
    (RawDump.fields.map ("dump." ++ ·.key) ++ RawLogs.fields.map ("logs." ++ ·.key) ++
      RawLogging.fields.map ("logging." ++ ·.key)).erase "dump.args" =
        Setting.all.map (·.rule.field) := by
  decide

end RawConfig

end StoreLog
