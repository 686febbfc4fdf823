import IfStack.Session.Run
import IfStack.Std.OsString

/-! # Loading the configuration

`load` of `config.rs`: the arguments are read from left to right, then the file they select,
and what they override is put in place before the result is checked. TOML and the file
system are what a run finds them to be.
-/

namespace IfStack

open OsString

/-- `LogLevel`. -/
inductive LogLevel
  | error
  | warn
  | info
  | debug
  | trace
deriving DecidableEq

/-- The configuration as a whole. -/
structure FullConfig extends Config where
  socket : OsString
  reconcile : UInt64
  logLevel : LogLevel

/-- `Config::default`. -/
def FullConfig.default : FullConfig where
  socket := ofString "/var/agentx/master"
  reconcile := 3600
  priority := 127
  logLevel := .info

/-- `Action`. -/
inductive Action
  | run (config : FullConfig)
  | help
  | version

/-- The file system and the TOML parser. Their errors are kept as they print. -/
structure Files where
  readToString : OsString → Except (ErrorKind × String) String
  fromStr : String → Except String FullConfig

/-- A value that an option takes. -/
def usable (value : OsString) : Bool :=
  !value.isEmpty && !(['-', '-'].isPrefixOf (decodeLossy value))

/-- The error for an option without a value. -/
def missing (arg : OsString) : String := toStringLossy arg ++ " requires a path"

/-- The loop of `load`. What it returns early is kept as an error. -/
def parseArgs : List OsString → Option OsString → Option OsString →
    Except (Except String Action) (Option OsString × Option OsString)
  | [], path, socket => .ok (path, socket)
  | arg :: args, path, socket =>
      if arg = ofString "--help" ∨ arg = ofString "-h" then .error (.ok .help)
      else if arg = ofString "--version" then .error (.ok .version)
      else if arg = ofString "--config" ∨ arg = ofString "--socket" then
        match args with
        | [] => .error (.error (missing arg))
        | value :: args =>
            if usable value then
              if arg = ofString "--config" then parseArgs args (some value) socket
              else parseArgs args path (some value)
            else .error (.error (missing arg))
      else .error (.error ("Unknown argument: " ++ toStringLossy arg))

variable (files : Files)

/-- The configuration in the selected file, or the default one. -/
def readConfig (path : Option OsString) (defaultPath : OsString) : Except String FullConfig :=
  let selectedPath := path.getD defaultPath
  match files.readToString selectedPath with
  | .ok contents =>
      match files.fromStr contents with
      | .ok config => .ok config
      | .error error => .error (toStringLossy selectedPath ++ ": " ++ error)
  | .error (kind, error) =>
      if kind = .notFound ∧ path.isNone then .ok .default
      else .error ("config " ++ toStringLossy selectedPath ++ ": " ++ error)

/-- The override and the checks. -/
def checkConfig (config : FullConfig) (socket : Option OsString) : Except String Action :=
  let config := match socket with
    | some socket => { config with socket }
    | none => config
  if config.socket.isEmpty then .error "socket must not be empty"
  else if config.reconcile = 0 then .error "reconcile must be at least 1 second"
  else if config.priority = 0 then .error "priority must be between 1 and 255"
  else .ok (.run config)

/-- `load`, and the paths of the files it reads. -/
def load (args : List OsString) (defaultPath : OsString) :
    Except String Action × List OsString :=
  match parseArgs args none none with
  | .error returned => (returned, [])
  | .ok (path, socket) =>
      let result := do
        let config ← readConfig files path defaultPath
        checkConfig config socket
      (result, [path.getD defaultPath])

/-- An option with its value. -/
inductive Setting
  | config (value : OsString)
  | socket (value : OsString)

namespace Setting

/-- A setting as it stands among the arguments. -/
def args : Setting → List OsString
  | .config value => [ofString "--config", value]
  | .socket value => [ofString "--socket", value]

/-- The value of a setting. -/
def value : Setting → OsString
  | .config value => value
  | .socket value => value

/-- The path that a setting gives for the configuration. -/
def config? : Setting → Option OsString
  | .config value => some value
  | .socket _ => none

/-- The path that a setting gives for the socket. -/
def socket? : Setting → Option OsString
  | .socket value => some value
  | .config _ => none

/-- Its value is there and does not start with two dashes. -/
def Sound (setting : Setting) : Prop :=
  setting.value ≠ [] ∧ ¬ [0x2D, 0x2D] <+: setting.value

instance (setting : Setting) : Decidable setting.Sound :=
  inferInstanceAs (Decidable (setting.value ≠ [] ∧ ¬ [0x2D, 0x2D] <+: setting.value))

end Setting

/-- The last value of `--config`. -/
def lastConfig (settings : List Setting) : Option OsString :=
  (settings.filterMap Setting.config?).getLast?

/-- The last value of `--socket`. -/
def lastSocket (settings : List Setting) : Option OsString :=
  (settings.filterMap Setting.socket?).getLast?

/-- The arguments from the one on that decides the outcome. -/
inductive Decided : List OsString → Except String Action → Prop
  | help {arg : OsString} {rest : List OsString} :
      arg = ofString "--help" ∨ arg = ofString "-h" → Decided (arg :: rest) (.ok .help)
  | version {rest : List OsString} : Decided (ofString "--version" :: rest) (.ok .version)
  | last {arg : OsString} : arg = ofString "--config" ∨ arg = ofString "--socket" →
      Decided [arg] (.error (toStringLossy arg ++ " requires a path"))
  | unusable {arg value : OsString} {rest : List OsString} :
      arg = ofString "--config" ∨ arg = ofString "--socket" →
      value = [] ∨ [0x2D, 0x2D] <+: value →
      Decided (arg :: value :: rest) (.error (toStringLossy arg ++ " requires a path"))
  | unknown {arg : OsString} {rest : List OsString} :
      (∀ known ∈ ["--help", "-h", "--version", "--config", "--socket"], arg ≠ ofString known) →
      Decided (arg :: rest) (.error ("Unknown argument: " ++ toStringLossy arg))

/-- A value is usable when it is not empty and does not start with two dashes. -/
theorem usable_iff (value : OsString) :
    usable value = true ↔ value ≠ [] ∧ ¬ [0x2D, 0x2D] <+: value := by
  unfold usable
  rw [← dashes_prefix_iff, ← List.isPrefixOf_iff_prefix, Bool.and_eq_true, Bool.not_eq_true',
    Bool.not_eq_true', Bool.not_eq_true, List.isEmpty_eq_false_iff]

/-- An option that takes a value is no other option. -/
theorem takes_value {arg : OsString}
    (takes : arg = ofString "--config" ∨ arg = ofString "--socket") :
    ¬ (arg = ofString "--help" ∨ arg = ofString "-h") ∧ arg ≠ ofString "--version" := by
  rcases takes with rfl | rfl
  · decide +kernel
  · decide +kernel

/-- An option takes the next argument for its value, if that will do. -/
theorem parseArgs_value {arg : OsString}
    (takes : arg = ofString "--config" ∨ arg = ofString "--socket") (value : OsString)
    (rest : List OsString) (path socket : Option OsString) :
    parseArgs (arg :: value :: rest) path socket =
      if usable value then
        if arg = ofString "--config" then parseArgs rest (some value) socket
        else parseArgs rest path (some value)
      else .error (.error (missing arg)) := by
  obtain ⟨notHelp, notVersion⟩ := takes_value takes
  conv_lhs => unfold parseArgs
  rw [if_neg notHelp, if_neg notVersion, if_pos takes]

/-- A setting is read, and its value is not looked at again. -/
theorem parseArgs_setting {setting : Setting} (sound : setting.Sound) (rest : List OsString)
    (path socket : Option OsString) : parseArgs (setting.args ++ rest) path socket =
      parseArgs rest (setting.config?.or path) (setting.socket?.or socket) := by
  cases setting with
  | config value =>
      have taken : usable value = true := (usable_iff value).mpr sound
      have read := parseArgs_value (.inl rfl) value rest path socket
      rw [if_pos taken, if_pos rfl] at read
      exact read
  | socket value =>
      have taken : usable value = true := (usable_iff value).mpr sound
      have other : ofString "--socket" ≠ ofString "--config" := by decide +kernel
      have read := parseArgs_value (.inr rfl) value rest path socket
      rw [if_pos taken, if_neg other] at read
      exact read

/-- The last of several values comes after those before it. -/
theorem getLast?_or {α : Type} (first : Option α) (values : List α) (before : Option α) :
    (first.toList ++ values).getLast?.or before = values.getLast?.or (first.or before) := by
  cases first with
  | none => rfl
  | some value =>
      rw [Option.toList_some, List.singleton_append, List.getLast?_cons]
      cases values.getLast? <;> rfl

/-- A filtered list, with its first item as a list of at most one. -/
theorem filterMap_cons_toList {α β : Type} (f : α → Option β) (item : α) (items : List α) :
    (item :: items).filterMap f = (f item).toList ++ items.filterMap f := by
  rw [List.filterMap_cons]
  cases f item <;> rfl

/-- Settings are read one after the other, and the last of each kind stands. -/
theorem parseArgs_settings {settings : List Setting} (sound : ∀ setting ∈ settings, setting.Sound)
    (rest : List OsString) (path socket : Option OsString) :
    parseArgs (settings.flatMap Setting.args ++ rest) path socket =
      parseArgs rest ((lastConfig settings).or path) ((lastSocket settings).or socket) := by
  induction settings generalizing path socket with
  | nil => rfl
  | cons setting settings ih =>
      obtain ⟨first, others⟩ := List.forall_mem_cons.mp sound
      rw [List.flatMap_cons, List.append_assoc, parseArgs_setting first, ih others, lastConfig,
        lastConfig, lastSocket, lastSocket, filterMap_cons_toList Setting.config?,
        filterMap_cons_toList Setting.socket?, getLast?_or, getLast?_or]

/-- What decides the outcome ends the reading of the arguments. -/
theorem parseArgs_decided {args : List OsString} {outcome : Except String Action}
    (decided : Decided args outcome) (path socket : Option OsString) :
    parseArgs args path socket = .error outcome := by
  cases decided with
  | help asked =>
      unfold parseArgs
      rw [if_pos asked]
  | version =>
      have other : ¬ (ofString "--version" = ofString "--help" ∨
          ofString "--version" = ofString "-h") := by decide +kernel
      unfold parseArgs
      rw [if_neg other, if_pos rfl]
  | last takes =>
      obtain ⟨notHelp, notVersion⟩ := takes_value takes
      unfold parseArgs
      rw [if_neg notHelp, if_neg notVersion, if_pos takes]
      rfl
  | @unusable arg value rest takes bad =>
      have refused : ¬ usable value = true := by
        intro good
        obtain ⟨some, plain⟩ := (usable_iff value).mp good
        exact bad.elim some plain
      rw [parseArgs_value takes, if_neg refused]
      rfl
  | unknown none =>
      simp only [List.mem_cons, List.not_mem_nil, or_false, forall_eq_or_imp, forall_eq] at none
      obtain ⟨notHelp, notH, notVersion, notConfig, notSocket⟩ := none
      unfold parseArgs
      rw [if_neg (not_or.mpr ⟨notHelp, notH⟩), if_neg notVersion,
        if_neg (not_or.mpr ⟨notConfig, notSocket⟩)]

/-- Arguments are settings, up to one that decides the outcome or to their end. -/
def Scanned (args : List OsString) : Prop :=
  ∃ (settings : List Setting) (rest : List OsString),
    (∀ setting ∈ settings, setting.Sound) ∧ args = settings.flatMap Setting.args ++ rest ∧
      (rest = [] ∨ ∃ outcome, Decided rest outcome)

/-- Decided arguments are scanned with no setting before them. -/
theorem Decided.scanned {args : List OsString} {outcome : Except String Action}
    (decided : Decided args outcome) : Scanned args :=
  ⟨[], args, fun _ member => absurd member List.not_mem_nil, rfl, .inr ⟨outcome, decided⟩⟩

/-- A sound setting before scanned arguments is scanned too. -/
theorem Scanned.cons {setting : Setting} {args : List OsString} (sound : setting.Sound)
    (scanned : Scanned args) : Scanned (setting.args ++ args) := by
  obtain ⟨settings, rest, others, rfl, ends⟩ := scanned
  refine ⟨setting :: settings, rest, List.forall_mem_cons.mpr ⟨sound, others⟩, ?_, ends⟩
  rw [List.flatMap_cons, List.append_assoc]

/-- Any arguments are scanned from left to right. -/
theorem scanned (args : List OsString) (path socket : Option OsString) : Scanned args := by
  fun_induction parseArgs args path socket with
  | case1 path socket =>
      exact ⟨[], [], fun _ member => absurd member List.not_mem_nil, rfl, .inl rfl⟩
  | case2 arg args path socket asked => exact (Decided.help asked).scanned
  | case3 args path socket other => exact Decided.version.scanned
  | case4 arg path socket notHelp notVersion takes => exact (Decided.last takes).scanned
  | case5 path socket value args good notHelp notVersion takes ih =>
      have sound : (Setting.config value).Sound := (usable_iff value).mp good
      exact ih.cons sound
  | case6 arg path socket notHelp notVersion takes value args good notConfig ih =>
      obtain rfl := takes.resolve_left notConfig
      have sound : (Setting.socket value).Sound := (usable_iff value).mp good
      exact ih.cons sound
  | case7 arg path socket notHelp notVersion takes value args bad =>
      rw [usable_iff, not_and_or, not_not, not_not] at bad
      exact (Decided.unusable takes bad).scanned
  | case8 arg args path socket notHelp notVersion notTakes =>
      obtain ⟨notHelp, notH⟩ := not_or.mp notHelp
      obtain ⟨notConfig, notSocket⟩ := not_or.mp notTakes
      apply Decided.scanned
      apply Decided.unknown
      simp only [List.mem_cons, List.not_mem_nil, or_false, forall_eq_or_imp, forall_eq]
      exact ⟨notHelp, notH, notVersion, notConfig, notSocket⟩

/-- What a run needs of its configuration. -/
structure FullConfig.Valid (config : FullConfig) : Prop where
  socket : config.socket ≠ []
  reconcile : 1 ≤ config.reconcile
  priority : 1 ≤ config.priority

/-- A field without what a run needs, and the error that names it. -/
inductive FullConfig.Violates (config : FullConfig) : String → Prop
  | socket : config.socket = [] → Violates config "socket must not be empty"
  | reconcile : config.reconcile = 0 → Violates config "reconcile must be at least 1 second"
  | priority : config.priority = 0 → Violates config "priority must be between 1 and 255"

/-- The configuration with the socket of the arguments in the place of its own. -/
def FullConfig.override (config : FullConfig) (socket : Option OsString) : FullConfig :=
  { config with socket := socket.getD config.socket }

/-- The configuration that a path selects. The default path may lead to no file, and only
to none: then it selects the default configuration. -/
inductive Selects (files : Files) (path : Option OsString) (defaultPath : OsString) :
    Except String FullConfig → Prop
  | parsed {contents : String} {config : FullConfig} :
      files.readToString (path.getD defaultPath) = .ok contents →
      files.fromStr contents = .ok config → Selects files path defaultPath (.ok config)
  | unparsed {contents error : String} :
      files.readToString (path.getD defaultPath) = .ok contents →
      files.fromStr contents = .error error →
      Selects files path defaultPath
        (.error (toStringLossy (path.getD defaultPath) ++ ": " ++ error))
  | absent {error : String} : path = none →
      files.readToString defaultPath = .error (.notFound, error) →
      Selects files path defaultPath (.ok .default)
  | unread {kind : ErrorKind} {error : String} :
      files.readToString (path.getD defaultPath) = .error (kind, error) →
      (kind = .notFound → path ≠ none) →
      Selects files path defaultPath
        (.error ("config " ++ toStringLossy (path.getD defaultPath) ++ ": " ++ error))

/-- What becomes of a selected configuration. -/
inductive Concludes (socket : Option OsString) :
    Except String FullConfig → Except String Action → Prop
  | unselected {error : String} : Concludes socket (.error error) (.error error)
  | run {config : FullConfig} : (config.override socket).Valid →
      Concludes socket (.ok config) (.ok (.run (config.override socket)))
  | invalid {config : FullConfig} {error : String} :
      (config.override socket).Violates error → Concludes socket (.ok config) (.error error)

/-- `read_config` reads the given file, or the default one where it exists. -/
theorem readConfig_selects (path : Option OsString) (defaultPath : OsString) :
    Selects files path defaultPath (readConfig files path defaultPath) := by
  unfold readConfig
  dsimp only
  split <;> rename_i read
  · split <;> rename_i parsed
    · exact .parsed read parsed
    · exact .unparsed read parsed
  · rename_i kind error
    split
    · rename_i absent
      obtain ⟨rfl, none⟩ := absent
      have path := Option.isNone_iff_eq_none.mp none
      subst path
      exact .absent rfl read
    · rename_i present
      apply Selects.unread read
      intro notFound none
      exact present ⟨notFound, Option.isNone_iff_eq_none.mpr none⟩

/-- A socket given as an argument is checked as if the file had given it. -/
theorem checkConfig_eq (config : FullConfig) (socket : Option OsString) :
    checkConfig config socket = checkConfig (config.override socket) none := by
  cases socket <;> rfl

/-- A configuration is run when it is valid. -/
theorem checkConfig_concludes (config : FullConfig) (socket : Option OsString) :
    Concludes socket (.ok config) (checkConfig config socket) := by
  rw [checkConfig_eq]
  unfold checkConfig
  dsimp only
  split
  · rename_i empty
    exact .invalid (.socket (List.isEmpty_iff.mp empty))
  split
  · rename_i zero
    exact .invalid (.reconcile zero)
  split
  · rename_i zero
    exact .invalid (.priority zero)
  · rename_i filled reconcile priority
    refine .run ⟨fun empty => filled (List.isEmpty_iff.mpr empty), ?_, ?_⟩
    · have positive : (config.override socket).reconcile.toNat ≠ 0 :=
        fun zero => reconcile (UInt64.toNat_inj.mp zero)
      exact UInt64.le_iff_toNat_le.mpr (Nat.pos_of_ne_zero positive)
    · have positive : (config.override socket).priority.toNat ≠ 0 :=
        fun zero => priority (UInt8.toNat_inj.mp zero)
      exact UInt8.le_iff_toNat_le.mpr (Nat.pos_of_ne_zero positive)

/-- Settings alone select a configuration by the last of each kind. -/
theorem load_settings {settings : List Setting} (sound : ∀ setting ∈ settings, setting.Sound)
    (defaultPath : OsString) :
    load files (settings.flatMap Setting.args) defaultPath =
      (readConfig files (lastConfig settings) defaultPath >>= fun config =>
          checkConfig config (lastSocket settings),
        [(lastConfig settings).getD defaultPath]) := by
  have parsed := parseArgs_settings sound [] none none
  rw [List.append_nil, Option.or_none, Option.or_none] at parsed
  unfold load
  rw [parsed]
  rfl

/-- What decides the outcome does so before any file is read. -/
theorem load_decided {settings : List Setting} (sound : ∀ setting ∈ settings, setting.Sound)
    {rest : List OsString} {outcome : Except String Action} (decided : Decided rest outcome)
    (defaultPath : OsString) :
    load files (settings.flatMap Setting.args ++ rest) defaultPath = (outcome, []) := by
  unfold load
  rw [parseArgs_settings sound, parseArgs_decided decided]

/-- Loading the settings concludes by the file that the last path selects. -/
theorem load_concludes {settings : List Setting} (sound : ∀ setting ∈ settings, setting.Sound)
    (defaultPath : OsString) :
    ∃ selected, Selects files (lastConfig settings) defaultPath selected ∧
      Concludes (lastSocket settings) selected
        (load files (settings.flatMap Setting.args) defaultPath).1 := by
  refine ⟨_, readConfig_selects files (lastConfig settings) defaultPath, ?_⟩
  rw [load_settings files sound]
  cases readConfig files (lastConfig settings) defaultPath with
  | error error => exact .unselected
  | ok config => exact checkConfig_concludes config (lastSocket settings)

/-- Nothing but a valid configuration is run. -/
theorem load_valid {args : List OsString} {defaultPath : OsString} {config : FullConfig}
    (runs : (load files args defaultPath).1 = .ok (.run config)) : config.Valid := by
  obtain ⟨settings, rest, sound, rfl, ends⟩ := scanned args none none
  rcases ends with rfl | ⟨outcome, decided⟩
  · rw [List.append_nil] at runs
    obtain ⟨selected, _, concludes⟩ := load_concludes files sound defaultPath
    rw [runs] at concludes
    cases concludes with
    | run valid => exact valid
  · rw [load_decided files sound decided] at runs
    subst runs
    cases decided

/-- **The configuration.** Arguments are settings up to one that decides the outcome, or
to their end. What decides does so before any file is read. Settings select by the last of
each kind, however they are mixed, and nothing but a valid configuration is run. -/
theorem load_exact (defaultPath : OsString) :
    (∀ args, Scanned args) ∧
    (∀ (settings : List Setting) rest outcome, (∀ setting ∈ settings, setting.Sound) →
      Decided rest outcome →
      load files (settings.flatMap Setting.args ++ rest) defaultPath = (outcome, [])) ∧
    (∀ settings : List Setting, (∀ setting ∈ settings, setting.Sound) →
      (load files (settings.flatMap Setting.args) defaultPath).2 =
          [(lastConfig settings).getD defaultPath] ∧
        ∃ selected, Selects files (lastConfig settings) defaultPath selected ∧
          Concludes (lastSocket settings) selected
            (load files (settings.flatMap Setting.args) defaultPath).1) ∧
    (∀ settings settings' : List Setting, (∀ setting ∈ settings, setting.Sound) →
      (∀ setting ∈ settings', setting.Sound) →
      lastConfig settings = lastConfig settings' → lastSocket settings = lastSocket settings' →
      load files (settings.flatMap Setting.args) defaultPath =
        load files (settings'.flatMap Setting.args) defaultPath) ∧
    ∀ args config, (load files args defaultPath).1 = .ok (.run config) → config.Valid := by
  refine ⟨fun args => scanned args none none, ?_, ?_, ?_, fun _ _ => load_valid files⟩
  · intro settings rest outcome sound decided
    exact load_decided files sound decided defaultPath
  · intro settings sound
    refine ⟨?_, load_concludes files sound defaultPath⟩
    rw [load_settings files sound]
  · intro settings settings' sound sound' config socket
    rw [load_settings files sound, load_settings files sound', config, socket]

/-- A file system with one file, which sets no socket. -/
def oneFile : Files where
  readToString path :=
    if path = ofString "/tmp/a.toml" then .ok "socket = ''"
    else .error (.notFound, "No such file or directory (os error 2)")
  fromStr _ := .ok { FullConfig.default with socket := [] }

/-- A file and a socket, each given twice, and a value that is spelled like an option. -/
def mixedSettings : List Setting :=
  [.socket (ofString "-h"), .config (ofString "/tmp/b.toml"), .socket (ofString "/run/master"),
    .config (ofString "/tmp/a.toml")]

theorem load_exact_mixed :
    load oneFile (mixedSettings.flatMap Setting.args) (ofString "/etc/agentx-ifstack.toml") =
      load oneFile ([.config (ofString "/tmp/a.toml"), .socket (ofString "/run/master")].flatMap
        Setting.args) (ofString "/etc/agentx-ifstack.toml") ∧
    (load oneFile (mixedSettings.flatMap Setting.args)
      (ofString "/etc/agentx-ifstack.toml")).2 = [ofString "/tmp/a.toml"] := by
  have sound : ∀ setting ∈ mixedSettings, setting.Sound := by decide +kernel
  have config : lastConfig mixedSettings = some (ofString "/tmp/a.toml") := rfl
  have socket : lastSocket mixedSettings = some (ofString "/run/master") := rfl
  obtain ⟨_, _, selects, depends, _⟩ :=
    load_exact oneFile (ofString "/etc/agentx-ifstack.toml")
  exact ⟨depends _ _ sound (by decide +kernel) config socket, (selects _ sound).1⟩

end IfStack
