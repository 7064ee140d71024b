import QuerySieve.Config
import QuerySieve.Proofs.Logging

/-!
# QuerySieve.Proofs.Verbosity

**More output on request.** The command line asks for it, the request is written into the section
for all other targets, and the filter of the console reads it there.

A target that a section is named for keeps the level of that section. Any other target gets the
level that was asked for, if there is a section to write the request into
(`verbosity_takes_effect_iff`). Where no settings are given the standard ones bring that section.
Settings that are given without it lose the request (`request_for_output_is_lost`).
-/

namespace QuerySieve

/-! ### Levels -/

namespace LogLevel

/-- The most verbose level that is to pass if more output was asked for so often. -/
def askedFor : Nat → Option LogLevel
  | 0 => none
  | 1 => some info
  | 2 => some debug
  | _ => some trace

theorem exists_askedFor {n : Nat} (h : 1 ≤ n) : ∃ asked, askedFor n = some asked := by
  match n with
  | 1 => exact ⟨info, rfl⟩
  | 2 => exact ⟨debug, rfl⟩
  | _ + 3 => exact ⟨trace, rfl⟩

/-- The name of a level is a setting for that level. -/
theorem ofSetting?_name (level : LogLevel) : ofSetting? level.name = some level := by
  cases level <;> decide

end LogLevel

/-! ### Filters of sections that are named alike -/

namespace LogFilter

variable {level : LogSection → Option LogLevel} {settings : LogSettings} {target : String}

theorem named_ofSections : (ofSections level settings).named =
    (Entries.erase LogSettings.catchAll settings.entries).map fun s => (s.1, level s.2) := by
  simp only [ofSections, Entries.erase, bne, decide_not]
  rfl

/-- What a filter says of named sections depends on those alone. -/
theorem named_ofSections_congr {other : LogSettings}
    (h : ∀ name, name ≠ LogSettings.catchAll → settings.get? name = other.get? name) :
    (ofSections level settings).named = (ofSections level other).named := by
  have herase : Entries.erase LogSettings.catchAll settings.entries =
      Entries.erase LogSettings.catchAll other.entries := by
    refine Entries.ext_get? (Entries.ascending_erase _ settings.ascending)
      (Entries.ascending_erase _ other.ascending) fun name => ?_
    rw [Entries.get?_erase, Entries.get?_erase]
    split
    · rfl
    · next hname => exact h name hname
  rw [named_ofSections, named_ofSections, herase]

/-- A named section that decides is the one the filter finds. -/
theorem longest?_of_decides {name : String} {part : LogSection}
    (h : settings.Decides target name part) (hname : name ≠ LogSettings.catchAll) :
    longest? target (ofSections level settings).named = some (name, level part) := by
  cases h with
  | named hpart _ hstart hlongest =>
    refine (longest?_eq_some_iff (nodup_named_ofSections level settings)).2
      ⟨mem_named_ofSections.2 ⟨part, hpart, hname, rfl⟩, hstart, ?_⟩
    intro other hother hbegins
    obtain ⟨otherPart, hother, hother', -⟩ := mem_named_ofSections.1 hother
    exact hlongest _ hother hother' hbegins
  | catchAll => exact absurd rfl hname

theorem levelFor_eq_otherwise {f : LogFilter}
    (h : ∀ n ∈ f.named, ¬ Text.startsWith n.1 target) : f.levelFor target = f.otherwise := by
  rw [levelFor, longest?_eq_none_iff.2 h]

theorem enables_iff {f : LogFilter} {level : LogLevel} :
    f.enables target level ↔ ∃ most, f.levelFor target = some most ∧
      level.verbosity ≤ most.verbosity := by
  rw [enables]
  cases f.levelFor target <;> simp

end LogFilter

/-! ### The request in the sections -/

namespace Config

variable {config : Config} {overrides : Overrides} {n : Nat} {name : String}

/-- The sections of a configuration, of which there are none without logging settings. -/
def sections (config : Config) : LogSettings := config.logging.getD ∅

/-- What passes to the console. -/
def consoleFilter (config : Config) : LogFilter := .console config.sections

theorem verboseLevel?_eq (n : Nat) : verboseLevel? n = (LogLevel.askedFor n).map LogLevel.name := by
  match n with
  | 0 | 1 | 2 | _ + 3 => rfl

theorem get?_withVerbosity_of_ne {sections : LogSettings} (h : name ≠ LogSettings.catchAll) :
    (withVerbosity n sections).get? name = sections.get? name := by
  unfold withVerbosity
  split
  · rw [Dict.get?_insert, if_neg h]
  · rfl

theorem get?_withVerbosity_catchAll {sections : LogSettings} {level : String}
    (h : verboseLevel? n = some level) :
    (withVerbosity n sections).get? LogSettings.catchAll =
      (sections.get? LogSettings.catchAll).map fun part => { part with consoleLevel := level } := by
  rw [withVerbosity, h]
  cases hpart : sections.get? LogSettings.catchAll with
  | some part => exact (Dict.get?_insert ..).trans (if_pos rfl)
  | none => exact hpart

/-- Without the section for all other targets there is nothing to change. -/
theorem withVerbosity_eq_self {sections : LogSettings}
    (h : sections.get? LogSettings.catchAll = none) : withVerbosity n sections = sections := by
  unfold withVerbosity
  split
  · next hpart => rw [h] at hpart; cases hpart
  · rfl

theorem sections_override :
    (config.override overrides).sections =
      withVerbosity overrides.verbosity (config.logging.getD .standard) := rfl

/-- The command line leaves the named sections as they are. -/
theorem get?_sections_override (h : name ≠ LogSettings.catchAll) :
    (config.override overrides).sections.get? name = config.sections.get? name := by
  rw [sections_override, get?_withVerbosity_of_ne h, sections]
  cases config.logging with
  | some sections => rfl
  | none =>
    -- the settings that stand in have no named section
    show Entries.get? name [(LogSettings.catchAll, _)] = none
    rw [Entries.get?, if_neg h.symm, Entries.get?_nil]

theorem named_consoleFilter_override :
    (config.override overrides).consoleFilter.named = config.consoleFilter.named :=
  LogFilter.named_ofSections_congr fun _ => get?_sections_override

/-- What passes for all other targets is what was asked for, if there is a section to say so. -/
theorem otherwise_consoleFilter_override {asked : LogLevel}
    (h : LogLevel.askedFor overrides.verbosity = some asked) :
    (config.override overrides).consoleFilter.otherwise =
      ((config.logging.getD .standard).get? LogSettings.catchAll).map fun _ => asked := by
  have hverbose : verboseLevel? overrides.verbosity = some asked.name := by
    rw [verboseLevel?_eq, h, Option.map_some]
  rw [consoleFilter, sections_override, LogFilter.console, LogFilter.ofSections,
    get?_withVerbosity_catchAll hverbose, Option.bind_map, Option.map_eq_bind]
  simp only [Function.comp_def, LogSection.consoleFilter, LogLevel.ofSetting?_name]

/-- The standard settings have a section for all other targets. -/
theorem contains_catchAll_getD : (config.logging.getD .standard).contains LogSettings.catchAll =
    config.logging.all (·.contains LogSettings.catchAll) := by
  cases config.logging <;> rfl

/-- When more output is asked for, the console lets through exactly what was asked for of every
target that no section is named for, provided that settings which are given have the section for
all other targets; without it nothing passes. The named sections keep their levels, and decide as
configured for the targets that they are named for. -/
theorem verbosity_takes_effect_iff (config : Config) (overrides : Overrides)
    (hverbose : 1 ≤ overrides.verbosity) :
    ∃ asked, LogLevel.askedFor overrides.verbosity = some asked ∧
      (∀ target, (∀ s ∈ config.sections.entries, s.1 ≠ LogSettings.catchAll →
          ¬ Text.startsWith s.1 target) → ∀ level,
        ((config.override overrides).consoleFilter.enables target level ↔
          level.verbosity ≤ asked.verbosity ∧
            config.logging.all (·.contains LogSettings.catchAll))) ∧
      (config.override overrides).consoleFilter.named = config.consoleFilter.named ∧
      ∀ target name part, config.sections.Decides target name part →
        name ≠ LogSettings.catchAll →
        (config.override overrides).consoleFilter.levelFor target = part.consoleFilter := by
  obtain ⟨asked, hasked⟩ := LogLevel.exists_askedFor hverbose
  refine ⟨asked, hasked, ?_, named_consoleFilter_override, ?_⟩
  · intro target hunnamed level
    have hnamed : ∀ n ∈ (config.override overrides).consoleFilter.named,
        ¬ Text.startsWith n.1 target := by
      intro n hn
      rw [named_consoleFilter_override] at hn
      obtain ⟨part, hpart, hname, -⟩ := LogFilter.mem_named_ofSections.1 hn
      exact hunnamed _ hpart hname
    rw [LogFilter.enables_iff, LogFilter.levelFor_eq_otherwise hnamed,
      otherwise_consoleFilter_override hasked, ← contains_catchAll_getD, Dict.contains]
    cases (config.logging.getD .standard).get? LogSettings.catchAll <;> simp
  · intro target name part hdecides hname
    rw [LogFilter.levelFor, named_consoleFilter_override, consoleFilter, LogFilter.console,
      LogFilter.longest?_of_decides hdecides hname]

/-- Warnings on the console, and nothing of the database driver. -/
def quietDriver : Config where
  logging := some (.ofList [(LogSettings.catchAll, { consoleLevel := "warn" }),
    ("sqlx", { consoleLevel := "off" })])

/-- Details are shown when asked for twice, and still nothing of the driver. -/
theorem verbosity_takes_effect_iff_of_quietDriver :
    1 ≤ ({ verbosity := 2 } : Overrides).verbosity ∧
      (quietDriver.override { verbosity := 2 }).consoleFilter.enables "urlfilter_core::search"
        .debug ∧
      ¬ (quietDriver.override { verbosity := 2 }).consoleFilter.enables "urlfilter_core::search"
        .trace ∧
      (quietDriver.override { verbosity := 2 }).consoleFilter.levelFor "sqlx::query" = none := by
  obtain ⟨asked, hasked, hother, -, hdecided⟩ :=
    verbosity_takes_effect_iff quietDriver { verbosity := 2 } (by decide)
  obtain rfl : LogLevel.debug = asked := Option.some.inj hasked
  have hunnamed : ∀ s ∈ quietDriver.sections.entries, s.1 ≠ LogSettings.catchAll →
      ¬ Text.startsWith s.1 "urlfilter_core::search" := by decide +kernel
  have hdriver : quietDriver.sections.Decides "sqlx::query" "sqlx" { consoleLevel := "off" } :=
    .named (by decide +kernel) (by decide) (by decide) (by decide +kernel)
  refine ⟨by decide, (hother _ hunnamed .debug).2 (by decide +kernel), ?_, ?_⟩
  · intro h
    exact absurd ((hother _ hunnamed .trace).1 h).1 (by decide)
  · rw [hdecided _ _ _ hdriver (by decide)]
    decide

/-- A configuration file that turns off the output of the database driver and says nothing else. -/
def driverOff : String :=
  "\x7b\"logging\": \x7b\"sqlx\": \x7b\"console_level\": \"off\"\x7d\x7d\x7d"

theorem ofFile_driverOff : ∃ config, ofFile "cfg.yaml" (some driverOff) [] = .ok config ∧
    config.logging = some (.ofList [("sqlx", { consoleLevel := "off" })]) := by
  have hread : (ofFile "cfg.yaml" (some driverOff) []).toOption.map (·.logging) =
      some (some (.ofList [("sqlx", { consoleLevel := "off" })])) := by decide +kernel
  cases hfile : ofFile "cfg.yaml" (some driverOff) [] with
  | error e => simp only [hfile, Except.toOption, Option.map_none, reduceCtorEq] at hread
  | ok config =>
    simp only [hfile, Except.toOption, Option.map_some, Option.some.injEq] at hread
    exact ⟨config, rfl, hread⟩

/-- The file has no section for all other targets, so that nothing is shown of them, however often
more output is asked for. -/
theorem request_for_output_is_lost :
    ∃ config, ofFile "cfg.yaml" (some driverOff) [] = .ok config ∧
      (∀ s ∈ config.sections.entries, s.1 ≠ LogSettings.catchAll →
        ¬ Text.startsWith s.1 "urlfilter_core::search") ∧
      ∀ n level, ¬ (config.override { verbosity := n }).consoleFilter.enables
        "urlfilter_core::search" level := by
  obtain ⟨config, hconfig, hlogging⟩ := ofFile_driverOff
  refine ⟨config, hconfig, ?_, fun n level => ?_⟩
  · rw [sections, hlogging]
    decide +kernel
  · rw [consoleFilter, sections_override, hlogging, Option.getD_some,
      withVerbosity_eq_self (by decide +kernel)]
    cases level <;> decide +kernel

end Config

end QuerySieve
