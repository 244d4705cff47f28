/-
# Settings in layers

The settings of a run come from the settings files, one after another, and then from the
arguments. A file that cannot be read or is malformed ends the loading with its own error,
and the first such file is the one that is reported. If there is none, the files are taken
in one after another (`loadLayers_eq`), and as a file replaces what it names and leaves the
rest, every setting is the one of the last file that names it (`view_foldl_applyFileAt`).

Only the outcome of all layers is checked, so a value that is not valid does no harm where a
later layer names another. What passes the check is what a run starts with
(`Configuration.load_eq_layers`).
-/
import PrintJob.Configuration
import PrintJob.Proofs.LastValue

namespace PrintJob

/-! ## One file -/

/-- The settings that the file at a path names, if it is text and well-formed. -/
def settingsAt? (fs : FileSystem) (path : String) : Option SettingsFile :=
  (fs.readText path).toOption.bind SettingsFile.parse

/-- What is wrong with the settings file at a path: it cannot be read as text, or the text
is malformed. -/
def settingsError? (fs : FileSystem) (path : String) : Option ConfigurationError :=
  match fs.readText path with
  | .error cause => some (.unreadable path cause)
  | .ok text => if (SettingsFile.parse text).isNone then some (.malformed path) else none

/-- A settings file is loaded unless something is wrong with it. -/
theorem loadFile_eq (fs : FileSystem) (path : String) :
    loadFile fs path =
      match settingsError? fs path with
      | some error => .error error
      | none => .ok ((settingsAt? fs path).getD {}) := by
  rw [loadFile, settingsError?, settingsAt?]
  cases fs.readText path with
  | error cause => rfl
  | ok text =>
    cases hparse : SettingsFile.parse text with
    | none => simp [hparse]
    | some file => simp [Except.toOption, hparse]

/-! ## All files -/

/-- Takes in the settings file at a path. -/
def applyFileAt (fs : FileSystem) (settings : EstimatorSettings) (path : String) :
    EstimatorSettings :=
  ((settingsAt? fs path).getD {}).apply settings

/-- **The first file with an error decides**, whatever stands in the files before it and
behind it; files without an error are taken in one after another. -/
theorem loadLayers_eq (fs : FileSystem) (paths : List String) :
    loadLayers fs paths =
      match paths.findSome? (settingsError? fs) with
      | some error => .error error
      | none => .ok (paths.foldl (applyFileAt fs) {}) := by
  rw [loadLayers]
  -- the files are taken in on top of any settings, not only of the built-in ones
  generalize ({} : EstimatorSettings) = settings
  induction paths generalizing settings with
  | nil => rfl
  | cons path rest ih =>
    rw [List.foldlM_cons, List.findSome?_cons, List.foldl_cons, loadFile_eq]
    cases settingsError? fs path with
    | some error => rfl
    | none => exact ih (applyFileAt fs settings path)

/-- What the last of the files that name a setting says about it. -/
def lastNamed {β : Type} (fs : FileSystem) (setting : SettingsFile → Option β)
    (paths : List String) : Option β :=
  paths.findSomeRev? fun path => (settingsAt? fs path).bind setting

/-- A setting that files replace where they name it is in the end the last one named. -/
theorem view_foldl_applyFileAt {β : Type} (view : EstimatorSettings → β)
    {setting : SettingsFile → Option β} (hempty : setting {} = none)
    (happly : ∀ file settings, view (SettingsFile.apply file settings) =
      (setting file).getD (view settings))
    (fs : FileSystem) (settings : EstimatorSettings) (paths : List String) :
    view (paths.foldl (applyFileAt fs) settings) =
      (lastNamed fs setting paths).getD (view settings) := by
  apply foldl_eq_getD view
  intro settings path
  rw [applyFileAt, happly]
  cases settingsAt? fs path with
  | none => rw [Option.getD_none, hempty, Option.bind_none]
  | some file => rfl

/-! ## All layers -/

/-- The settings that the files at some paths and then the arguments amount to. -/
def layeredSettings (fs : FileSystem) (arguments : Arguments) (paths : List String) :
    EstimatorSettings :=
  arguments.settings.apply (paths.foldl (applyFileAt fs) {})

/-- Each setting is that of the arguments, or else that of the last file that names it, or
else the built-in one. -/
theorem layeredSettings_eq (fs : FileSystem) (arguments : Arguments) (paths : List String) :
    layeredSettings fs arguments paths = {
      feedRate :=
        arguments.feedRate.getD ((lastNamed fs SettingsFile.feedRate paths).getD 1200)
      policy :=
        arguments.policy.getD ((lastNamed fs SettingsFile.policy paths).getD .keepPrevious) } := by
  have hrate : (paths.foldl (applyFileAt fs) {}).feedRate =
      (lastNamed fs SettingsFile.feedRate paths).getD 1200 :=
    view_foldl_applyFileAt EstimatorSettings.feedRate rfl (fun _ _ => rfl) fs {} paths
  have hpolicy : (paths.foldl (applyFileAt fs) {}).policy =
      (lastNamed fs SettingsFile.policy paths).getD .keepPrevious :=
    view_foldl_applyFileAt EstimatorSettings.policy rfl (fun _ _ => rfl) fs {} paths
  rw [← hrate, ← hpolicy]
  rfl

/-- Settings that pass the check are what a run starts with. -/
theorem simulate_of_isValid {settings : EstimatorSettings} (h : settings.isValid = true)
    (text : List Char) :
    simulate settings text =
      (MotionState.run settings.policy (.start settings.feedRate) (movesOf text)).toSimulation := by
  rw [simulate, finalState, EstimatorSettings.startingFeedRate, if_pos h]

namespace Configuration

/-- The configuration that goes with some arguments and the settings of all layers. -/
def ofLayers (arguments : Arguments) (settings : EstimatorSettings) (paths : List String) :
    Configuration where
  files := arguments.files
  format := arguments.format
  watch := arguments.watch
  logLevel := arguments.logLevel
  settings := settings
  sources := paths

/-- Loading stops at the first settings file with an error, and after all files the outcome
is checked. -/
theorem load_eq (fs : FileSystem) (userFile : Option String) (arguments : Arguments)
    {paths : List String} (hpaths : settingsPaths fs userFile arguments = paths)
    {settings : EstimatorSettings} (hsettings : layeredSettings fs arguments paths = settings) :
    load fs userFile arguments =
      match paths.findSome? (settingsError? fs) with
      | some error => .error error
      | none =>
        if settings.isValid then .ok (ofLayers arguments settings paths)
        else .error (.invalid settings) := by
  rw [load, hpaths, loadLayers_eq, ← hsettings]
  cases paths.findSome? (settingsError? fs) with
  | some error => rfl
  | none => rfl

/-- **The configuration is what the last layer that names a setting says**: the arguments,
or else the last settings file that names it, or else the built-in value. The files are that
of the user, if it is a file, and then that of the arguments; the first of them that cannot
be read or is malformed is the error. The configuration is refused exactly if the feed rate
that comes out is not finite and positive, and otherwise every run starts with that rate. -/
theorem load_eq_layers (fs : FileSystem) (userFile : Option String) (arguments : Arguments) :
    let paths := (userFile.filter fs.isFile).toList ++ arguments.config.toList
    let rate := arguments.feedRate.getD ((lastNamed fs SettingsFile.feedRate paths).getD 1200)
    let policy :=
      arguments.policy.getD ((lastNamed fs SettingsFile.policy paths).getD .keepPrevious)
    (load fs userFile arguments =
      match paths.findSome? (settingsError? fs) with
      | some error => .error error
      | none =>
        if rate.isFinite && rate.isPositive then
          .ok {
            files := arguments.files
            format := arguments.format
            watch := arguments.watch
            logLevel := arguments.logLevel
            settings := { feedRate := rate, policy := policy }
            sources := paths }
        else .error (.invalid { feedRate := rate, policy := policy })) ∧
      ∀ configuration, load fs userFile arguments = .ok configuration → ∀ text,
        simulate configuration.settings text =
          (MotionState.run policy (.start rate) (movesOf text)).toSimulation := by
  intro paths rate policy
  have hsettings : layeredSettings fs arguments paths = { feedRate := rate, policy := policy } :=
    layeredSettings_eq fs arguments paths
  have hload := load_eq fs userFile arguments rfl hsettings
  refine ⟨hload, ?_⟩
  intro configuration hconfiguration text
  rw [hload] at hconfiguration
  split at hconfiguration
  · cases hconfiguration
  · split at hconfiguration
    next hvalid =>
      cases hconfiguration
      exact simulate_of_isValid hvalid text
    next => cases hconfiguration

/-- The file of the user names a policy and a feed rate that is not valid, the file of the
arguments names another feed rate: the policy stays, and runs start with the other rate. -/
theorem load_of_replaced_feed_rate :
    let fs : FileSystem := {
      readText := fun path =>
        if path = "user.toml" then
          .ok "[estimator]\ndefault_feed_rate = -1\nzero_feed_policy = \"skip-move\"".toList
        else if path = "job.toml" then .ok "[estimator]\ndefault_feed_rate = 900\n".toList
        else .error .notFound
      isFile := fun path => path == "user.toml"
      canonical := fun _ => .error .notFound }
    let arguments : Arguments := { files := ["part.gcode"], config := some "job.toml" }
    let configuration : Configuration := {
      files := ["part.gcode"]
      format := .text
      watch := false
      logLevel := "warn"
      settings := ⟨900, .skipMove⟩
      sources := ["user.toml", "job.toml"] }
    load fs (some "user.toml") arguments = .ok configuration ∧
      ∀ text, simulate configuration.settings text =
        (MotionState.run .skipMove (.start 900) (movesOf text)).toSimulation := by
  intro fs arguments configuration
  have hpaths : ((some "user.toml").filter fs.isFile).toList ++ arguments.config.toList =
      ["user.toml", "job.toml"] := by decide +kernel
  have hfiles : ["user.toml", "job.toml"].findSome? (settingsError? fs) = none := by
    decide +kernel
  have hrate : lastNamed fs SettingsFile.feedRate ["user.toml", "job.toml"] = some 900 := by
    decide +kernel
  have hpolicy : lastNamed fs SettingsFile.policy ["user.toml", "job.toml"] = some .skipMove := by
    decide +kernel
  obtain ⟨hload, hstart⟩ := load_eq_layers fs (some "user.toml") arguments
  rw [hpaths, hfiles, hrate, hpolicy] at hload
  rw [hpaths, hrate, hpolicy] at hstart
  have hvalid : ((900 : Binary64).isFinite && (900 : Binary64).isPositive) = true := by
    decide +kernel
  have hconfiguration : load fs (some "user.toml") arguments = .ok configuration :=
    hload.trans (if_pos hvalid)
  exact ⟨hconfiguration, hstart configuration hconfiguration⟩

end Configuration

end PrintJob
