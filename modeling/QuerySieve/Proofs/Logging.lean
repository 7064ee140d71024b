import Mathlib.Data.List.Nodup
import QuerySieve.Logging.Router
import QuerySieve.Proofs.Text

/-!
# QuerySieve.Proofs.Logging

**Log filtering and log routing**, which read one set of sections by two rules.

For the filter a section is for every target whose text begins with its name, and of several the
longest name decides (`LogSettings.Decides`). For the router a section with a file is for the target
of its name and for those that go on with `::` after it (`IsFor`), and of several the first takes
the record, in whatever order the sections happen to be kept (`LogRouter.routeFor_ofSections`).

The rules agree on a target as long as the section that decides is the only one that is for it
(`routed_as_filtered_iff`). A name that merely begins another, and a section within another, are
where they do not (`enabled_record_is_dropped`).
-/

namespace QuerySieve

theorem startsWith_of_isTargetWithin {name target : String} (h : isTargetWithin name target) :
    Text.startsWith name target := by
  rw [Text.startsWith_iff]
  obtain heq | hbelow := Bool.or_eq_true_iff.1 h
  · obtain rfl := beq_iff_eq.1 heq
    exact List.prefix_rfl
  · rw [Text.startsWith_iff, String.toList_append] at hbelow
    exact (List.prefix_append _ _).trans hbelow

/-- The section decides what passes for a target: its name is the longest that the target begins
with, or there is no such name and it is the section for all other targets. -/
inductive LogSettings.Decides (settings : LogSettings) (target : String) :
    String → LogSection → Prop
  | named {name : String} {part : LogSection} (hpart : (name, part) ∈ settings.entries)
      (hname : name ≠ catchAll) (hstart : Text.startsWith name target)
      (hlongest : ∀ other ∈ settings.entries, other.1 ≠ catchAll →
        Text.startsWith other.1 target → other.1.length ≤ name.length) :
      Decides settings target name part
  | catchAll {part : LogSection} (hpart : (LogSettings.catchAll, part) ∈ settings.entries)
      (hnone : ∀ other ∈ settings.entries, other.1 ≠ LogSettings.catchAll →
        ¬ Text.startsWith other.1 target) :
      Decides settings target LogSettings.catchAll part

theorem LogSettings.Decides.mem {settings : LogSettings} {target name : String} {part : LogSection}
    (h : settings.Decides target name part) : (name, part) ∈ settings.entries := by
  cases h with
  | named hpart => exact hpart
  | catchAll hpart => exact hpart

namespace LogFilter

variable {target : String} {level : LogSection → Option LogLevel} {settings : LogSettings}

/-! ### The longest name -/

theorem foldl_longer_spec {α : Type} (first : String × α) (more : List (String × α)) :
    more.foldl longer first ∈ first :: more ∧
      ∀ other ∈ first :: more, other.1.length ≤ (more.foldl longer first).1.length := by
  induction more generalizing first with
  | nil => simp
  | cons next more ih =>
    obtain ⟨hmem, hle⟩ := ih (longer first next)
    obtain ⟨hbest, hrest⟩ := List.forall_mem_cons.1 hle
    have hlonger : longer first next ∈ [first, next] ∧
        first.1.length ≤ (longer first next).1.length ∧
          next.1.length ≤ (longer first next).1.length := by
      unfold longer
      split
      · simp; omega
      · simp; omega
    obtain ⟨hone, hfirst, hnext⟩ := hlonger
    rw [List.foldl_cons]
    refine ⟨?_, List.forall_mem_cons.2 ⟨Nat.le_trans hfirst hbest,
      List.forall_mem_cons.2 ⟨Nat.le_trans hnext hbest, hrest⟩⟩⟩
    obtain heq | hmore := List.mem_cons.1 hmem
    · rw [heq]
      exact List.mem_append_left more hone
    · exact List.mem_cons_of_mem _ (List.mem_cons_of_mem _ hmore)

variable {named : List (String × Option LogLevel)}

theorem longest?_eq_none_iff :
    longest? target named = none ↔ ∀ other ∈ named, ¬ Text.startsWith other.1 target := by
  have hnil : (named.filter fun n => Text.startsWith n.1 target) = [] ↔
      ∀ other ∈ named, ¬ Text.startsWith other.1 target := List.filter_eq_nil_iff
  rw [← hnil, longest?]
  cases named.filter fun n => Text.startsWith n.1 target <;> simp

/-- Among names that differ the longest one is found, in whatever order they are. -/
theorem longest?_eq_some_iff (hnodup : (named.map (·.1)).Nodup)
    {found : String × Option LogLevel} : longest? target named = some found ↔
      found ∈ named ∧ Text.startsWith found.1 target ∧
        ∀ other ∈ named, Text.startsWith other.1 target → other.1.length ≤ found.1.length := by
  have hspec : ∀ found, longest? target named = some found → found ∈ named ∧
      Text.startsWith found.1 target ∧
        ∀ other ∈ named, Text.startsWith other.1 target → other.1.length ≤ found.1.length := by
    intro found h
    unfold longest? at h
    cases hbegun : named.filter fun n => Text.startsWith n.1 target with
    | nil => simp [hbegun] at h
    | cons first more =>
      simp only [hbegun, Option.some.injEq] at h
      obtain ⟨hmem, hle⟩ := foldl_longer_spec first more
      rw [h, ← hbegun] at hmem
      rw [h, ← hbegun] at hle
      obtain ⟨hfound, hstart⟩ := List.mem_filter.1 hmem
      exact ⟨hfound, hstart, fun other hother hbegins =>
        hle other (List.mem_filter.2 ⟨hother, hbegins⟩)⟩
  constructor
  · exact hspec found
  · intro h
    obtain ⟨hfound, hstart, hlongest⟩ := h
    cases hbest : longest? target named with
    | none => exact absurd hstart (longest?_eq_none_iff.1 hbest found hfound)
    | some best =>
      obtain ⟨hmem, hbegins, hle⟩ := hspec best hbest
      -- both are the longest, so they have one name
      have hlength := Nat.le_antisymm (hlongest best hmem hbegins) (hle found hfound hstart)
      have hname := Text.eq_of_startsWith hbegins hstart hlength
      rw [List.inj_on_of_nodup_map hnodup hmem hfound hname]

/-- The order of the names does not matter. -/
theorem longest?_perm {other : List (String × Option LogLevel)} (hperm : other.Perm named)
    (hnodup : (named.map (·.1)).Nodup) : longest? target other = longest? target named := by
  have hnodup' := (hperm.map (·.1)).nodup_iff.2 hnodup
  refine Option.ext fun found => ?_
  rw [longest?_eq_some_iff hnodup, longest?_eq_some_iff hnodup']
  simp only [hperm.mem_iff]

/-! ### What the filter lets through -/

theorem mem_named_ofSections {name : String} {most : Option LogLevel} :
    (name, most) ∈ (ofSections level settings).named ↔
      ∃ part, (name, part) ∈ settings.entries ∧ name ≠ LogSettings.catchAll ∧
        level part = most := by
  simp only [ofSections, List.mem_map, List.mem_filter, bne_iff_ne, Prod.mk.injEq, Prod.exists]
  constructor
  · intro h
    obtain ⟨other, part, ⟨hpart, hname⟩, rfl, hlevel⟩ := h
    exact ⟨part, hpart, hname, hlevel⟩
  · intro h
    obtain ⟨part, hpart, hname, hlevel⟩ := h
    exact ⟨name, part, ⟨hpart, hname⟩, rfl, hlevel⟩

theorem nodup_named_ofSections (level : LogSection → Option LogLevel) (settings : LogSettings) :
    ((ofSections level settings).named.map (·.1)).Nodup := by
  rw [ofSections, List.map_map]
  exact (settings.nodup_keys).sublist (List.filter_sublist.map _)

/-- What passes for a target, a section has decided. -/
theorem exists_decides {most : LogLevel}
    (h : (ofSections level settings).levelFor target = some most) :
    ∃ name part, settings.Decides target name part ∧ level part = some most := by
  unfold levelFor at h
  cases hlongest : longest? target (ofSections level settings).named with
  | some found =>
    obtain ⟨name, found⟩ := found
    obtain ⟨hmem, hstart, hle⟩ :=
      (longest?_eq_some_iff (nodup_named_ofSections level settings)).1 hlongest
    obtain ⟨part, hpart, hname, hlevel⟩ := mem_named_ofSections.1 hmem
    simp only [hlongest] at h
    refine ⟨name, part, .named hpart hname hstart ?_, hlevel.trans h⟩
    intro other hother hother' hbegins
    exact hle _ (mem_named_ofSections.2 ⟨other.2, hother, hother', rfl⟩) hbegins
  | none =>
    simp only [hlongest] at h
    obtain ⟨part, hpart, hlevel⟩ := Option.bind_eq_some_iff.1 h
    refine ⟨_, part, .catchAll (Dict.get?_eq_some_iff.1 hpart) ?_, hlevel⟩
    intro other hother hname
    exact longest?_eq_none_iff.1 hlongest _
      (mem_named_ofSections.2 ⟨other.2, hother, hname, rfl⟩)

end LogFilter

/-! ### Routing -/

/-- The section has a file for the target, in the eyes of the router. -/
def IsFor (target : String) (s : String × LogSection) : Prop :=
  s.1 ≠ LogSettings.catchAll ∧ s.2.hasFile ∧ isTargetWithin s.1 target

instance (target : String) (s : String × LogSection) : Decidable (IsFor target s) :=
  inferInstanceAs (Decidable (_ ∧ _ ∧ _))

namespace LogRouter

variable {opens : String → Bool} {sections : List (String × LogSection)} {target : String}

/-- The first section that is for the target takes its records, or else the section for all other
targets does. -/
theorem routeFor_ofSections (hopens : ∀ s ∈ sections, s.2.hasFile → opens s.2.file) :
    (ofSections opens sections).routeFor target =
      match sections.find? (IsFor target ·) with
      | some s => some (s.1, s.2.file)
      | none => (sections.find? fun s => s.2.hasFile && s.1 == LogSettings.catchAll).map
          fun s => (LogSettings.catchAll, s.2.file) := by
  have husable : (sections.filter fun s => s.2.hasFile && opens s.2.file) =
      sections.filter fun s => s.2.hasFile := by
    refine List.filter_congr fun s hs => ?_
    cases hfile : s.2.hasFile with
    | false => rfl
    | true => simp [hopens s hs hfile]
  have hnamed : ((sections.filter fun s => s.2.hasFile).filter
        fun s => s.1 != LogSettings.catchAll).find? (fun s => isTargetWithin s.1 target) =
      sections.find? (IsFor target ·) := by
    rw [List.find?_filter, List.find?_filter]
    congr 1
    funext s
    simp only [IsFor, Bool.decide_and, Bool.decide_eq_true, bne]
    grind
  have hfallback : (sections.filter fun s => s.2.hasFile).find?
        (fun s => s.1 == LogSettings.catchAll) =
      sections.find? fun s => s.2.hasFile && s.1 == LogSettings.catchAll := by
    rw [List.find?_filter]
    simp only [Bool.decide_and, Bool.decide_eq_true]
  simp only [routeFor, ofSections, husable, List.find?_map, Function.comp_def, hnamed, hfallback]
  cases sections.find? (IsFor target ·) with
  | some s => rfl
  | none => rw [Option.map_none, Option.map_map]; rfl

theorem routeFor_eq_none_iff (hopens : ∀ s ∈ sections, s.2.hasFile → opens s.2.file) :
    (ofSections opens sections).routeFor target = none ↔
      ∀ s ∈ sections, ¬ IsFor target s ∧ (s.1 = LogSettings.catchAll → ¬ s.2.hasFile) := by
  rw [routeFor_ofSections hopens]
  cases hfind : sections.find? (IsFor target ·) with
  | some s =>
    have hfor : IsFor target s := by simpa only [decide_eq_true_eq] using List.find?_some hfind
    simp only [reduceCtorEq, false_iff]
    exact fun h => (h s (List.mem_of_find?_eq_some hfind)).1 hfor
  | none =>
    have hnone : ∀ s ∈ sections, ¬ IsFor target s := by
      simpa only [List.find?_eq_none, decide_eq_true_eq] using hfind
    simp only [Option.map_eq_none_iff, List.find?_eq_none, Bool.and_eq_true, beq_iff_eq]
    exact ⟨fun h s hs => ⟨hnone s hs, fun hname hfile => h s hs ⟨hfile, hname⟩⟩,
      fun h s hs hboth => (h s hs).2 hboth.2 hboth.1⟩

variable {name : String} {part : LogSection}

theorem routeFor_eq_iff (hopens : ∀ s ∈ sections, s.2.hasFile → opens s.2.file)
    (hnodup : (sections.map (·.1)).Nodup) (hpart : (name, part) ∈ sections)
    (hname : name ≠ LogSettings.catchAll) :
    (ofSections opens sections).routeFor target = some (name, part.file) ↔
      sections.find? (IsFor target ·) = some (name, part) := by
  rw [routeFor_ofSections hopens]
  cases hfind : sections.find? (IsFor target ·) with
  | some s =>
    constructor
    · intro h
      -- sections of one name are one, whatever their files
      have hsame : s.1 = name := (Prod.mk.inj (Option.some.inj h)).1
      rw [List.inj_on_of_nodup_map hnodup (List.mem_of_find?_eq_some hfind) hpart hsame]
    · intro h
      rw [Option.some.inj h]
  | none =>
    simp only [reduceCtorEq, iff_false]
    intro h
    obtain ⟨s, -, hs⟩ := Option.map_eq_some_iff.1 h
    exact hname (Prod.mk.inj hs).1.symm

/-- Without a section that is for the target, the file for all other targets takes its records. -/
theorem routeFor_eq_catchAll (hopens : ∀ s ∈ sections, s.2.hasFile → opens s.2.file)
    (hnodup : (sections.map (·.1)).Nodup) (hpart : (LogSettings.catchAll, part) ∈ sections)
    (hfile : part.hasFile) (hnone : ∀ s ∈ sections, ¬ IsFor target s) :
    (ofSections opens sections).routeFor target = some (LogSettings.catchAll, part.file) := by
  have hfind : sections.find? (IsFor target ·) = none := by
    simpa only [List.find?_eq_none, decide_eq_true_eq] using hnone
  rw [routeFor_ofSections hopens, hfind]
  cases hfallback : sections.find? fun s => s.2.hasFile && s.1 == LogSettings.catchAll with
  | some s =>
    have hsome := List.find?_some hfallback
    simp only [Bool.and_eq_true, beq_iff_eq] at hsome
    rw [List.inj_on_of_nodup_map hnodup (List.mem_of_find?_eq_some hfallback) hpart hsome.2]
    rfl
  | none =>
    refine absurd (List.find?_eq_none.1 hfallback _ hpart) ?_
    simp [hfile]

end LogRouter

/-! ### Filtering and routing -/

namespace LogFilter

variable {target : String} {settings : LogSettings}

/-- The order of the names does not matter to what passes. -/
theorem levelFor_perm {level : LogSection → Option LogLevel}
    {named : List (String × Option LogLevel)}
    (hperm : named.Perm (ofSections level settings).named) (target : String) :
    ({ ofSections level settings with named } : LogFilter).levelFor target =
      (ofSections level settings).levelFor target := by
  unfold levelFor
  rw [longest?_perm hperm (nodup_named_ofSections level settings)]

end LogFilter

theorem LogSection.hasFile_of_fileFilter {part : LogSection} {most : LogLevel}
    (h : part.fileFilter = some most) : part.hasFile := by
  unfold fileFilter at h
  split at h
  · assumption
  · cases h

namespace LogSettings.Decides

variable {settings : LogSettings} {target name : String} {part : LogSection}

/-- One section decides. -/
theorem unique {name' : String} {part' : LogSection} (h : settings.Decides target name part)
    (hother : settings.Decides target name' part') : (name, part) = (name', part') := by
  refine List.inj_on_of_nodup_map (Dict.nodup_keys settings) h.mem hother.mem ?_
  cases h with
  | named hpart hname hstart hlongest =>
    cases hother with
    | named hpart' hname' hstart' hlongest' =>
      exact Text.eq_of_startsWith hstart hstart' (Nat.le_antisymm
        (hlongest' _ hpart hname hstart) (hlongest _ hpart' hname' hstart'))
    | catchAll _ hnone => exact absurd hstart (hnone _ hpart hname)
  | catchAll _ hnone =>
    cases hother with
    | named hpart hname hstart => exact absurd hstart (hnone _ hpart hname)
    | catchAll => rfl

/-- Where the section for all other targets decides, no section is for the target. -/
theorem not_isFor (h : settings.Decides target LogSettings.catchAll part) :
    ∀ s ∈ settings.entries, ¬ IsFor target s := by
  intro s hs hfor
  cases h with
  | named _ hname => exact hname rfl
  | catchAll _ hnone => exact hnone s hs hfor.1 (startsWith_of_isTargetWithin hfor.2.2)

end LogSettings.Decides

section Agreement

variable {settings : LogSettings} {opens : String → Bool} {target name : String}
variable {part : LogSection} {sections : List (String × LogSection)}

theorem LogSettings.nodup_names (hsections : sections.Perm settings.entries) :
    (sections.map (·.1)).Nodup :=
  (hsections.map (·.1)).nodup_iff.2 (show (settings.entries.map (·.1)).Nodup from
    Dict.nodup_keys settings)

/-- With the sections in one order: the section that decides takes the records if it is the one for
all other targets, or if the router takes the target for one of its own and no section before is for
the target. -/
theorem routeFor_eq_deciding_iff (hopens : ∀ s ∈ settings.entries, s.2.hasFile → opens s.2.file)
    (hdecides : settings.Decides target name part) (hfile : part.hasFile)
    (hsections : sections.Perm settings.entries) :
    (LogRouter.ofSections opens sections).routeFor target = some (name, part.file) ↔
      name = LogSettings.catchAll ∨ ∃ before after, sections = before ++ (name, part) :: after ∧
        isTargetWithin name target ∧ ∀ other ∈ before, ¬ IsFor target other := by
  have hopens' : ∀ s ∈ sections, s.2.hasFile → opens s.2.file :=
    fun s hs => hopens s (hsections.mem_iff.1 hs)
  have hnodup := LogSettings.nodup_names hsections
  have hpart := hsections.mem_iff.2 hdecides.mem
  by_cases hname : name = LogSettings.catchAll
  · subst hname
    refine iff_of_true (LogRouter.routeFor_eq_catchAll hopens' hnodup hpart hfile ?_) (.inl rfl)
    exact fun s hs => hdecides.not_isFor s (hsections.mem_iff.1 hs)
  · rw [LogRouter.routeFor_eq_iff hopens' hnodup hpart hname, List.find?_eq_some_iff_append]
    have hfor : IsFor target (name, part) ↔ isTargetWithin name target :=
      ⟨fun h => h.2.2, fun h => ⟨hname, hfile, h⟩⟩
    simp only [decide_eq_true_eq, hfor, Bool.not_eq_true', decide_eq_false_iff_not, hname, false_or]
    constructor
    · intro h
      obtain ⟨hwithin, before, after, hsplit, hbefore⟩ := h
      exact ⟨before, after, hsplit, hwithin, hbefore⟩
    · intro h
      obtain ⟨before, after, hsplit, hwithin, hbefore⟩ := h
      exact ⟨hwithin, before, after, hsplit, hbefore⟩

/-- With the sections in any order: no other section may be for the target. -/
theorem forall_routeFor_eq_deciding_iff
    (hopens : ∀ s ∈ settings.entries, s.2.hasFile → opens s.2.file)
    (hdecides : settings.Decides target name part) (hfile : part.hasFile) :
    (∀ sections : List (String × LogSection), sections.Perm settings.entries →
        (LogRouter.ofSections opens sections).routeFor target = some (name, part.file)) ↔
      name = LogSettings.catchAll ∨ isTargetWithin name target ∧
        ∀ other ∈ settings.entries, IsFor target other → other.1 = name := by
  constructor
  · intro hrouted
    obtain hname | ⟨_, _, -, hwithin, -⟩ :=
      (routeFor_eq_deciding_iff hopens hdecides hfile (.refl _)).1 (hrouted _ (.refl _))
    · exact .inl hname
    refine .inr ⟨hwithin, fun other hother hfor => ?_⟩
    -- in the order in which it is the first it would take the records
    have hperm := (List.perm_cons_erase hother).symm
    have hroute := hrouted _ hperm
    rw [LogRouter.routeFor_ofSections fun s hs => hopens s (hperm.mem_iff.1 hs),
      List.find?_cons_of_pos (by exact decide_eq_true hfor)] at hroute
    exact (Prod.mk.inj (Option.some.inj hroute)).1
  · intro h sections hsections
    rw [routeFor_eq_deciding_iff hopens hdecides hfile hsections]
    obtain hname | ⟨hwithin, honly⟩ := h
    · exact .inl hname
    refine .inr ?_
    obtain ⟨before, after, hsplit⟩ := List.append_of_mem (hsections.mem_iff.2 hdecides.mem)
    refine ⟨before, after, hsplit, hwithin, fun other hother hfor => ?_⟩
    -- another of the name would be there twice
    have hnodup := LogSettings.nodup_names hsections
    rw [hsplit, List.map_append, List.map_cons] at hnodup
    have hname := honly other (hsections.mem_iff.1 (hsplit ▸ List.mem_append_left _ hother)) hfor
    exact (List.nodup_append.1 hnodup).2.2 _ (List.mem_map_of_mem hother) name
      (List.mem_cons_self ..) hname

end Agreement

/-- A section has let through what passes to the files, in whatever order the names are kept. The
router gives the record to that section if no other section comes before that is for the target; in
every order it does exactly if no other section is for the target. No section takes a record if
none is for its target, unless there is a file for all other targets. -/
theorem routed_as_filtered_iff (settings : LogSettings) (opens : String → Bool) (target : String)
    {level : LogLevel} {named : List (String × Option LogLevel)}
    (hopens : ∀ s ∈ settings.entries, s.2.hasFile → opens s.2.file)
    (hnamed : named.Perm (LogFilter.files settings).named)
    (henabled : ({ LogFilter.files settings with named } : LogFilter).enables target level) :
    ∃ name part most, settings.Decides target name part ∧ part.fileFilter = some most ∧
      level.verbosity ≤ most.verbosity ∧
      (∀ sections : List (String × LogSection), sections.Perm settings.entries →
        ((LogRouter.ofSections opens sections).routeFor target = some (name, part.file) ↔
          name = LogSettings.catchAll ∨ ∃ before after, sections = before ++ (name, part) :: after ∧
            isTargetWithin name target ∧ ∀ other ∈ before, ¬ IsFor target other)) ∧
      ((∀ sections : List (String × LogSection), sections.Perm settings.entries →
          (LogRouter.ofSections opens sections).routeFor target = some (name, part.file)) ↔
        name = LogSettings.catchAll ∨ isTargetWithin name target ∧
          ∀ other ∈ settings.entries, IsFor target other → other.1 = name) ∧
      ∀ sections : List (String × LogSection), sections.Perm settings.entries →
        ((LogRouter.ofSections opens sections).routeFor target = none ↔
          ∀ other ∈ settings.entries, ¬ IsFor target other ∧
            (other.1 = LogSettings.catchAll → ¬ other.2.hasFile)) := by
  rw [LogFilter.enables, LogFilter.files, LogFilter.levelFor_perm hnamed] at henabled
  cases hlevel : (LogFilter.ofSections LogSection.fileFilter settings).levelFor target with
  | none => simp [hlevel] at henabled
  | some most =>
    simp only [hlevel, decide_eq_true_eq] at henabled
    obtain ⟨name, part, hdecides, hmost⟩ := LogFilter.exists_decides hlevel
    have hfile := LogSection.hasFile_of_fileFilter hmost
    refine ⟨name, part, most, hdecides, hmost, henabled,
      fun sections => routeFor_eq_deciding_iff hopens hdecides hfile,
      forall_routeFor_eq_deciding_iff hopens hdecides hfile, ?_⟩
    intro sections hsections
    rw [LogRouter.routeFor_eq_none_iff fun s hs => hopens s (hsections.mem_iff.1 hs)]
    simp only [hsections.mem_iff]

/-- Logging of the records of the database and of all others, the former in detail. -/
def databaseLogging : LogSettings :=
  .ofList [("default", { consoleLevel := "warn", file := "all.log", fileLevel := "warn" }),
    ("urlfilter_db", { consoleLevel := "warn", file := "db.log", fileLevel := "debug" })]

/-- A detail that a part of the database reports is written to the file of the database, in
whatever order the sections are kept. -/
theorem routed_as_filtered_iff_of_database :
    (∀ s ∈ databaseLogging.entries, s.2.hasFile → (fun _ => true) s.2.file) ∧
      ((LogFilter.files databaseLogging).named.Perm (LogFilter.files databaseLogging).named) ∧
      (LogFilter.files databaseLogging).enables "urlfilter_db::loader" .debug ∧
      ∀ sections : List (String × LogSection), sections.Perm databaseLogging.entries →
        (LogRouter.ofSections (fun _ => true) sections).routeFor "urlfilter_db::loader" =
          some ("urlfilter_db", "db.log") := by
  have henabled : (LogFilter.files databaseLogging).enables "urlfilter_db::loader" .debug := by
    decide +kernel
  refine ⟨fun _ _ _ => rfl, .refl _, henabled, ?_⟩
  obtain ⟨name, part, _, hdecides, -, -, -, hrouted, -⟩ :=
    routed_as_filtered_iff databaseLogging (fun _ => true) "urlfilter_db::loader"
      (fun _ _ _ => rfl) (.refl _) henabled
  have hdatabase : databaseLogging.Decides "urlfilter_db::loader" "urlfilter_db"
      { consoleLevel := "warn", file := "db.log", fileLevel := "debug" } :=
    .named (by decide +kernel) (by decide) (by decide) (by decide +kernel)
  cases hdecides.unique hdatabase
  exact hrouted.2 (.inr (by decide +kernel))

/-- Logging of the records of the database alone. -/
def databaseOnly : LogSettings :=
  .ofList [("urlfilter_db", { consoleLevel := "warn", file := "db.log", fileLevel := "debug" })]

/-- Logging of a module apart from the library that it is in. -/
def nestedLogging : LogSettings :=
  .ofList [("urlfilter_db", { consoleLevel := "warn", file := "db.log", fileLevel := "debug" }),
    ("urlfilter_db::repo", { consoleLevel := "warn", file := "repo.log", fileLevel := "debug" })]

/-- What another library reports whose name only begins like that of the database is let through for
the database and written nowhere. What the module reports is let through for the module, and written
to the file of the library if that happens to be kept first. -/
theorem enabled_record_is_dropped :
    ((LogFilter.files databaseOnly).enables "urlfilter_db_ext" .debug ∧
      (LogRouter.ofSections (fun _ => true) databaseOnly.entries).routeFor "urlfilter_db_ext" =
        none) ∧
    (nestedLogging.Decides "urlfilter_db::repo" "urlfilter_db::repo"
        { consoleLevel := "warn", file := "repo.log", fileLevel := "debug" } ∧
      (LogFilter.files nestedLogging).enables "urlfilter_db::repo" .debug ∧
      (LogRouter.ofSections (fun _ => true) nestedLogging.entries).routeFor "urlfilter_db::repo" =
        some ("urlfilter_db", "db.log") ∧
      (LogRouter.ofSections (fun _ => true) nestedLogging.entries.reverse).routeFor
        "urlfilter_db::repo" = some ("urlfilter_db::repo", "repo.log")) := by
  refine ⟨⟨by decide +kernel, by decide +kernel⟩, ?_, by decide +kernel, by decide +kernel,
    by decide +kernel⟩
  exact .named (by decide +kernel) (by decide) (by decide) (by decide +kernel)

end QuerySieve
