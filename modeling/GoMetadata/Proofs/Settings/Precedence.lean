import GoMetadata.Proofs.Settings.Fallback
import GoMetadata.Proofs.Text.Lines
import GoMetadata.Proofs.Wire.Message

/-!
Which source a setting comes from, as laws on two runs. A setting that a variable gives does not
depend on the configuration, and one that no variable gives not on the environment; each depends on
the key of its own name only. A blank variable is as good as none, and flags of builds are those of
the configuration with those of the environment behind them.
-/

namespace GoMetadata

theorem Text.strip_eq_empty_iff {text : String} :
    Text.strip text = "" ↔ Text.isBlankText text = true := by
  rw [Text.strip, String.ofList_eq_empty_iff, Text.stripChars_eq_nil_iff, Text.isBlankText,
    List.all_eq_true]

namespace Environment

/-- The variable is set, and not to blanks only. -/
def Gives (environment : Environment) (name : String) : Prop :=
  ∃ value, environment.lookup name = some value ∧ Text.isBlankText value = false

/-- The variable is set, but to blanks only. -/
def LeavesBlank (environment : Environment) (name : String) : Prop :=
  ∃ value, environment.lookup name = some value ∧ Text.isBlankText value = true

def without (environment : Environment) (name : String) : Environment :=
  environment.filter fun entry => entry.1 ≠ name

variable {environment : Environment} {name other : String}

theorem lookup_without (environment : Environment) (name other : String) :
    (environment.without name).lookup other =
      if other = name then none else environment.lookup other := by
  induction environment with
  | nil => simp [without]
  | cons entry rest ih =>
    obtain ⟨key, value⟩ := entry
    unfold without at ih ⊢
    by_cases dropped : key = name
    · rw [List.filter_cons_of_neg (by simpa using dropped), ih]
      by_cases same : other = name
      · rw [if_pos same, if_pos same]
      · have differs : (other == key) = false := by simpa [dropped] using same
        rw [if_neg same, if_neg same, List.lookup_cons, differs]
    · rw [List.filter_cons_of_pos (by simpa using dropped), List.lookup_cons, List.lookup_cons, ih]
      by_cases found : other = key
      · simp only [found, beq_self_eq_true, if_neg dropped]
      · rw [beq_eq_false_iff_ne.2 found]

theorem get_ne_empty (gives : environment.Gives name) : environment.get name "" ≠ "" := by
  obtain ⟨value, found, filled⟩ := gives
  rw [get, found, Option.getD_some, Ne, Text.strip_eq_empty_iff, filled]
  exact Bool.false_ne_true

theorem get_without_of_ne (different : other ≠ name) (default : String) :
    (environment.without name).get other default = environment.get other default := by
  rw [get, get, lookup_without, if_neg different]

theorem get_without_of_blank (blank : environment.LeavesBlank name) (other : String) :
    (environment.without name).get other "" = environment.get other "" := by
  by_cases same : other = name
  · obtain ⟨value, found, blanks⟩ := blank
    rw [get, get, lookup_without, if_pos same, same, found, Option.getD_none, Option.getD_some,
      Text.strip_eq_empty_iff.2 blanks]
    rfl
  · exact get_without_of_ne same ""

end Environment

theorem Path.isAbsolute_join {base : Path} (absolute : base.isAbsolute = true) (other : Path) :
    (base.join other).isAbsolute = true := by
  rw [Path.join]
  split
  next already => exact already
  next => exact absolute

/-- The parts of the settings. -/
inductive Setting where
  | bazel
  | startupFlags
  | outputGroup
  | sourceSuffix
  | buildFlags
  | workspaceRoot
  | verbose
  deriving DecidableEq, Repr

namespace Setting

open Settings

def Value : Setting → Type
  | .bazel | .outputGroup | .sourceSuffix => String
  | .startupFlags | .buildFlags => List String
  | .workspaceRoot => Path
  | .verbose => Bool

def of : (setting : Setting) → Settings → setting.Value
  | .bazel => Settings.bazel
  | .startupFlags => Settings.startupFlags
  | .outputGroup => Settings.outputGroup
  | .sourceSuffix => Settings.sourceSuffix
  | .buildFlags => Settings.buildFlags
  | .workspaceRoot => Settings.workspaceRoot
  | .verbose => Settings.verbose

def key : Setting → String
  | .bazel => "bazel"
  | .startupFlags => "bazel_startup_flags"
  | .outputGroup => "output_group"
  | .sourceSuffix => "source_suffix"
  | .buildFlags => "build_flags"
  | .workspaceRoot => "workspace_root"
  | .verbose => "verbose"

/-- The variable that goes before the configuration, if there is one for the setting. -/
def overriddenBy : Setting → Option String
  | .bazel => some bazelVariable
  | .startupFlags => some startupFlagsVariable
  | .workspaceRoot => some workspaceVariable
  | .verbose => some verboseVariable
  | .outputGroup | .sourceSuffix | .buildFlags => none

def choose (base : Path) (environment : Environment) (found : Toml.Table) :
    (setting : Setting) → Except Defect setting.Value
  | .bazel => .ok (override environment bazelVariable (textOf "bazel" (found.get "bazel")))
  | .startupFlags => chooseStartupFlags environment found
  | .outputGroup => .ok (textOf "gopackagesdriver_data" (found.get "output_group"))
  | .sourceSuffix => .ok (textOf ".go" (found.get "source_suffix"))
  | .buildFlags => chooseBuildFlags environment found
  | .workspaceRoot => .ok (chooseWorkspace base environment found)
  | .verbose => .ok (chooseVerbose environment found)

variable {base : Path} {environment other : Environment} {found otherFound : Toml.Table}
  {settings : Settings} {setting : Setting}

theorem choose_of_choose (chosen : Settings.choose base environment found = .ok settings)
    (setting : Setting) : setting.choose base environment found = .ok (setting.of settings) := by
  obtain ⟨startupFlags, first, rest⟩ := Wire.bind_eq_ok_iff.1 chosen
  obtain ⟨buildFlags, second, last⟩ := Wire.bind_eq_ok_iff.1 rest
  obtain rfl := Except.ok.inj last
  cases setting with
  | startupFlags => exact first
  | buildFlags => exact second
  | bazel | outputGroup | sourceSuffix | workspaceRoot | verbose => rw [choose, of]

/-- A setting depends on the configuration only by the key of its own name. -/
theorem choose_of_key (same : found.get setting.key = otherFound.get setting.key) :
    setting.choose base environment found = setting.choose base environment otherFound := by
  cases setting with
  | bazel | outputGroup | sourceSuffix =>
    simp only [key] at same
    simp only [choose, same]
  | startupFlags =>
    change chooseStartupFlags environment found = chooseStartupFlags environment otherFound
    simp only [key] at same
    rw [chooseStartupFlags, chooseStartupFlags, same]
  | buildFlags =>
    change chooseBuildFlags environment found = chooseBuildFlags environment otherFound
    simp only [key] at same
    rw [chooseBuildFlags, chooseBuildFlags, same]
  | workspaceRoot =>
    simp only [key] at same
    simp only [choose, chooseWorkspace, same]
  | verbose =>
    simp only [key] at same
    simp only [choose, chooseVerbose, same]

theorem choose_of_gives {name : String} (taken : setting.overriddenBy = some name)
    (gives : environment.Gives name) :
    setting.choose base environment found = setting.choose base environment otherFound := by
  have filled := Environment.get_ne_empty gives
  cases setting with
  | bazel =>
    cases taken
    simp only [choose, override, if_neg filled]
  | startupFlags =>
    cases taken
    change chooseStartupFlags environment found = chooseStartupFlags environment otherFound
    simp only [chooseStartupFlags, if_neg filled]
  | workspaceRoot =>
    cases taken
    simp only [choose, chooseWorkspace, override, if_neg filled]
  | verbose =>
    cases taken
    simp only [choose, chooseVerbose, if_neg filled]
  | outputGroup | sourceSuffix | buildFlags => cases taken

end Setting

namespace Settings

def tableOf (content : Except Refusal Bytes) : Except Defect Toml.Table :=
  (readConfig content).map sectionOf

variable {base : Path} {environment other : Environment} {found otherFound : Toml.Table}
  {settings otherSettings : Settings} {read otherRead : Path → Except Refusal Bytes}

theorem load_of_tableOf (table : tableOf (read (configPath base environment)) = .ok found) :
    load read base environment = choose base environment found := by
  obtain ⟨config, parsed, rfl⟩ := Wire.except_map_eq_ok table
  exact ofConfigFile_of_readConfig parsed

theorem exists_table_of_load (loaded : load read base environment = .ok settings) :
    ∃ found, tableOf (read (configPath base environment)) = .ok found ∧
      choose base environment found = .ok settings := by
  rw [load] at loaded
  cases parsed : readConfig (read (configPath base environment)) with
  | error defect =>
    rw [ofConfigFile_of_error parsed] at loaded
    cases loaded
  | ok config =>
    rw [ofConfigFile_of_readConfig parsed] at loaded
    refine ⟨sectionOf config, ?_, loaded⟩
    rw [tableOf, parsed]
    rfl

theorem exists_load_iff (table : tableOf (read (configPath base environment)) = .ok found) :
    (∃ settings, load read base environment = .ok settings) ↔ ¬HasLongFlags environment found := by
  rw [load_of_tableOf table]
  rcases written_choose base environment found with ⟨long, failed⟩ | ⟨short, settings, chosen⟩
  · simp [failed, long]
  · exact iff_of_true ⟨settings, chosen⟩ short

theorem load_congr (same : ∀ name, environment.get name "" = other.get name "") :
    load read base environment = load read base other := by
  have path : configPath base environment = configPath base other := by
    simp only [configPath, same]
  have chosen : choose base environment = choose base other := by
    funext found
    simp only [choose, chooseStartupFlags, chooseBuildFlags, chooseWorkspace, chooseVerbose, override,
      same]
    rfl
  rw [load, load, path, ofConfigFile, ofConfigFile, chosen]

theorem load_without_of_blank {name : String} (blank : environment.LeavesBlank name)
    (read : Path → Except Refusal Bytes) (base : Path) :
    load read base (environment.without name) = load read base environment :=
  load_congr fun _ => Environment.get_without_of_blank blank _

theorem of_eq_of_choose_eq {setting : Setting}
    (chosen : choose base environment found = .ok settings)
    (otherChosen : choose base other otherFound = .ok otherSettings)
    (same : setting.choose base environment found = setting.choose base other otherFound) :
    setting.of settings = setting.of otherSettings := by
  have one := Setting.choose_of_choose chosen setting
  rw [same, Setting.choose_of_choose otherChosen setting] at one
  exact (Except.ok.inj one).symm

theorem isAbsolute_of_choose (absolute : base.isAbsolute = true)
    (chosen : choose base environment found = .ok settings) :
    settings.workspaceRoot.isAbsolute = true := by
  have root : chooseWorkspace base environment found = settings.workspaceRoot :=
    Except.ok.inj (Setting.choose_of_choose chosen .workspaceRoot)
  rw [← root]
  exact Path.isAbsolute_join absolute _

theorem exists_buildFlags_of_choose (chosen : choose base environment found = .ok settings) :
    ∃ configured, flagsOf (found.get "build_flags") = .ok configured ∧
      settings.buildFlags = configured ++ splitFlags (environment.get buildFlagsVariable "") := by
  have flags : chooseBuildFlags environment found = .ok settings.buildFlags :=
    Setting.choose_of_choose chosen .buildFlags
  obtain ⟨configured, ofTable, joined⟩ := Wire.bind_eq_ok_iff.1 flags
  exact ⟨configured, ofTable, (Except.ok.inj joined).symm⟩

theorem exists_load_without_buildFlags (loaded : load read base environment = .ok settings) :
    ∃ ofTable, load read base (environment.without buildFlagsVariable) = .ok ofTable ∧
      settings.buildFlags =
        ofTable.buildFlags ++ splitFlags (environment.get buildFlagsVariable "") := by
  obtain ⟨found, table, chosen⟩ := exists_table_of_load loaded
  obtain ⟨configured, flags, joined⟩ := exists_buildFlags_of_choose chosen
  have path : configPath base (environment.without buildFlagsVariable) =
      configPath base environment := by
    simp only [configPath]
    rw [Environment.get_without_of_ne (by decide)]
  have startup : (environment.without buildFlagsVariable).get startupFlagsVariable "" =
      environment.get startupFlagsVariable "" := Environment.get_without_of_ne (by decide) ""
  have short : ¬HasLongFlags (environment.without buildFlagsVariable) found := by
    rw [HasLongFlags, startup]
    exact (exists_load_iff table).1 ⟨settings, loaded⟩
  rw [← path] at table
  obtain ⟨ofTable, loadedWithout⟩ := (exists_load_iff table).2 short
  have chosenWithout := loadedWithout
  rw [load_of_tableOf table] at chosenWithout
  obtain ⟨_, sameFlags, joinedWithout⟩ := exists_buildFlags_of_choose chosenWithout
  cases flags.symm.trans sameFlags
  have nothing : (environment.without buildFlagsVariable).get buildFlagsVariable "" = "" := by
    rw [Environment.get, Environment.lookup_without, if_pos rfl]
    rfl
  have none : splitFlags "" = [] := rfl
  rw [nothing, none, List.append_nil] at joinedWithout
  exact ⟨ofTable, loadedWithout, joinedWithout ▸ joined⟩

theorem exists_load_noFile (base : Path) (environment : Environment) :
    ∃ ofEnvironment, load noFile base environment = .ok ofEnvironment ∧
      ofEnvironment.buildFlags = splitFlags (environment.get buildFlagsVariable "") := by
  obtain ⟨settings, chosen⟩ := choose_nil base environment
  obtain ⟨configured, flags, joined⟩ := exists_buildFlags_of_choose chosen
  obtain rfl : [] = configured := Except.ok.inj flags
  have table : tableOf (noFile (configPath base environment)) = .ok [] := rfl
  rw [List.nil_append] at joined
  exact ⟨settings, (load_of_tableOf table).trans chosen, joined⟩

/-- Of two runs in one environment, a setting is the same if a variable gives it or the
configurations agree on the key of its name. A run without a blank variable is as with it. The flags
of builds are those of the run without the variable for them, and behind them those of the run
without any file. Two environments that name the same file have the same output group and suffix of
sources, and the workspace is absolute if the base is. -/
theorem load_precedence (base : Path) (environment : Environment) :
    (∀ read found, tableOf (read (configPath base environment)) = .ok found →
      ((∃ settings, load read base environment = .ok settings) ↔
        ¬HasLongFlags environment found) ∧
      ∀ otherRead otherFound settings otherSettings,
        tableOf (otherRead (configPath base environment)) = .ok otherFound →
        load read base environment = .ok settings →
        load otherRead base environment = .ok otherSettings →
        ∀ setting : Setting,
          ((∃ name, setting.overriddenBy = some name ∧ environment.Gives name) ∨
            found.get setting.key = otherFound.get setting.key) →
          setting.of settings = setting.of otherSettings) ∧
    (∀ name, environment.LeavesBlank name → ∀ read,
      load read base (environment.without name) = load read base environment) ∧
    (∀ read found settings, tableOf (read (configPath base environment)) = .ok found →
      load read base environment = .ok settings →
      (∃ configured, flagsOf (found.get "build_flags") = .ok configured ∧
        settings.buildFlags = configured ++ splitFlags (environment.get buildFlagsVariable "")) ∧
      ∃ ofTable ofEnvironment,
        load read base (environment.without buildFlagsVariable) = .ok ofTable ∧
        load noFile base environment = .ok ofEnvironment ∧
        settings.buildFlags = ofTable.buildFlags ++ ofEnvironment.buildFlags) ∧
    (∀ other read settings otherSettings,
      configPath base other = configPath base environment →
      load read base environment = .ok settings → load read base other = .ok otherSettings →
      settings.outputGroup = otherSettings.outputGroup ∧
        settings.sourceSuffix = otherSettings.sourceSuffix) ∧
    (base.isAbsolute = true → ∀ read settings, load read base environment = .ok settings →
      settings.workspaceRoot.isAbsolute = true) := by
  refine ⟨fun read found table => ⟨exists_load_iff table, ?_⟩, ?_, ?_, ?_, ?_⟩
  · intro otherRead otherFound settings otherSettings otherTable loaded otherLoaded setting given
    rw [load_of_tableOf table] at loaded
    rw [load_of_tableOf otherTable] at otherLoaded
    refine of_eq_of_choose_eq loaded otherLoaded ?_
    rcases given with ⟨name, taken, gives⟩ | same
    · exact Setting.choose_of_gives taken gives
    · exact Setting.choose_of_key same
  · exact fun name blank read => load_without_of_blank blank read base
  · intro read found settings table loaded
    obtain ⟨ofTable, without, joined⟩ := exists_load_without_buildFlags loaded
    obtain ⟨ofEnvironment, bare, flags⟩ := exists_load_noFile base environment
    rw [load_of_tableOf table] at loaded
    exact ⟨exists_buildFlags_of_choose loaded, ofTable, ofEnvironment, without, bare,
      flags ▸ joined⟩
  · intro other read settings otherSettings path loaded otherLoaded
    obtain ⟨found, table, chosen⟩ := exists_table_of_load loaded
    obtain ⟨otherFound, otherTable, otherChosen⟩ := exists_table_of_load otherLoaded
    rw [path] at otherTable
    cases table.symm.trans otherTable
    have group : Setting.outputGroup.of settings = Setting.outputGroup.of otherSettings :=
      of_eq_of_choose_eq chosen otherChosen (by rw [Setting.choose, Setting.choose])
    have suffix : Setting.sourceSuffix.of settings = Setting.sourceSuffix.of otherSettings :=
      of_eq_of_choose_eq chosen otherChosen (by rw [Setting.choose, Setting.choose])
    exact ⟨group, suffix⟩
  · intro absolute read settings loaded
    obtain ⟨found, -, chosen⟩ := exists_table_of_load loaded
    exact isAbsolute_of_choose absolute chosen

/-- The program is that of the variable in two runs whose configurations name others, and flags of
builds stand behind those of the configuration; a blank variable leaves the word to the file. -/
theorem load_precedence_program_and_flags :
    let environment : Environment :=
      [(bazelVariable, " bz "), (verboseVariable, "\t"), (buildFlagsVariable, "-e")]
    let base : Path := .ofText "/w"
    let one (_ : Path) : Except Refusal Bytes :=
      .ok (Utf8.encode "[driver]\nbazel = 'a'\nbuild_flags = '-t'\n")
    let two (_ : Path) : Except Refusal Bytes :=
      .ok (Utf8.encode "[driver]\nbazel = 'b'\nverbose = 1\n")
    let settings : Settings := { bazel := "bz", buildFlags := ["-t", "-e"], workspaceRoot := base }
    let others : Settings :=
      { bazel := "bz", buildFlags := ["-e"], workspaceRoot := base, verbose := true }
    load one base environment = .ok settings ∧ load two base environment = .ok others ∧
      Setting.bazel.of settings = Setting.bazel.of others ∧
      load two base (environment.without verboseVariable) = .ok others ∧
      settings.workspaceRoot.isAbsolute = true := by
  intro environment base one two settings others
  have loaded : load one base environment = .ok settings := by decide +kernel
  have otherLoaded : load two base environment = .ok others := by decide +kernel
  have gives : environment.Gives bazelVariable := ⟨" bz ", by decide, by decide⟩
  have blank : environment.LeavesBlank verboseVariable := ⟨"\t", by decide, by decide⟩
  obtain ⟨laws, leftOut, -, -, absolute⟩ := load_precedence base environment
  obtain ⟨found, table, -⟩ := exists_table_of_load loaded
  obtain ⟨otherFound, otherTable, -⟩ := exists_table_of_load otherLoaded
  have same := (laws one found table).2 two otherFound settings others otherTable loaded otherLoaded
  exact ⟨loaded, otherLoaded, same .bazel (.inl ⟨_, rfl, gives⟩),
    (leftOut _ blank two).trans otherLoaded, absolute (by decide) one settings loaded⟩

end Settings

end GoMetadata
