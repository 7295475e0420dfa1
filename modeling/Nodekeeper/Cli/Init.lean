import Nodekeeper.Cli.Configs

/-!
# `init.rs` — the files of `CmdInit::run`

Before and after the two config steps of `Cli/Configs.lean`, `CmdInit::run` prepares the root
directory, loads the global config, the node config and stEVER's app config (creating each one
that is missing), sets the node config's paths, and installs the node binary.  `Files` holds
what these steps read and write; a config file holds the config last stored in it.  `World`
holds the paths of `ProjectDirs`, the results of code outside `init.rs`, and the user's typed
answers; the choices are `Prompter`'s.

`std::path` is taken on Unix: a path is absolute when it starts with `/` (`isAbsolute`), and two
paths are equal when their `components` are.

* `interactText_spec`: a prompt with a validator returns only what the validator accepts.
* `setupNodeConfigPaths_spec`: `setup_node_config_paths` stores the node config naming the global
  config and a DB path other than `node_db` (`NodePathsSet`): the one already set, or an absolute
  path the user typed.  It changes nothing else.
* `setupNodeConfigPaths_of_set`: on a node config it has set up, it asks nothing and changes
  nothing.  This needs `keepsDbPath_of_isAbsolute`: no absolute path is equal to `node_db`, so the
  path the user typed is never asked for again.
-/

namespace Nodekeeper.Cli

/-! ### Paths -/

/-- `std::path::Component` on Unix. -/
inductive Component
  | rootDir
  | curDir
  | parentDir
  | normal (name : String)
  deriving DecidableEq, Repr

/-- `Path::is_absolute` on Unix, which is `Path::has_root`: the path starts with `/`. -/
def isAbsolute (path : String) : Bool := path.front == '/'

/-- `Path::components` on Unix: the root or a leading `.`, then the parts between separators,
without empty parts and `.`. -/
def components (path : String) : List Component :=
  let parts := path.splitOn "/"
  let head := if isAbsolute path then [Component.rootDir]
    else if parts.head? = some "." then [Component.curDir] else []
  head ++ (parts.filter fun part => part != "" && part != ".").map fun part =>
    if part = ".." then Component.parentDir else Component.normal part

/-- A path starts with the root component exactly when it is absolute. -/
theorem head?_components_eq_rootDir (path : String) :
    (components path).head? = some .rootDir ↔ isAbsolute path = true := by
  unfold components
  by_cases h : isAbsolute path
  · simp [h]
  · have hbody : ∀ part : String, (if part = ".." then Component.parentDir
        else Component.normal part) ≠ .rootDir := fun part => by split <;> nofun
    simp only [h, if_false, Bool.false_eq_true, iff_false]
    split
    · nofun
    · simp [List.head?_map, hbody]

/-- An absolute path is never equal to a relative one. -/
theorem components_ne_of_isAbsolute {a b : String} (ha : isAbsolute a = true)
    (hb : isAbsolute b = false) : components a ≠ components b := fun h => by
  have := (head?_components_eq_rootDir a).2 ha
  rw [h, head?_components_eq_rootDir] at this
  simp [hb] at this

/-! ### Prompts -/

/-- `Input::interact_text` with a default and a validator: the user's lines are read until one
passes the validator, an empty line standing for the default; `none` when they run out, which is
the error of `interact_text`. -/
def interactText (default : String) (validate : String → Except String Unit) :
    List String → Option String
  | [] => none
  | line :: lines =>
    let input := if line.isEmpty then default else line
    match validate input with
    | .ok () => some input
    | .error _ => interactText default validate lines

/-- A prompt with a validator returns the default or a line the user typed, and only when the
validator accepts it. -/
theorem interactText_spec {default : String} {validate : String → Except String Unit}
    {lines : List String} {input : String} (h : interactText default validate lines = some input) :
    validate input = .ok () ∧ (input = default ∨ input ∈ lines) := by
  induction lines with
  | nil => cases h
  | cons line lines ih =>
    simp only [interactText] at h
    split at h
    · rename_i hv
      cases h
      refine ⟨hv, ?_⟩
      split
      · exact .inl rfl
      · exact .inr (List.mem_cons_self _ _)
    · obtain ⟨hv, hin⟩ := ih h
      exact ⟨hv, hin.imp_right (List.mem_cons_of_mem _)⟩

/-! ### `setup_node_config_paths` -/

variable {Secret Pub Keys : Type}

namespace Configs

/-- `node_config.set_global_config_path(..)`. -/
@[simp] def setGlobalConfigPath (s : Configs Secret Pub Keys) (path : String) :
    Configs Secret Pub Keys :=
  { s with node := { s.node with globalConfigPath := some path } }

/-- `node_config.set_internal_db_path(..)`. -/
@[simp] def setInternalDbPath (s : Configs Secret Pub Keys) (path : String) :
    Configs Secret Pub Keys :=
  { s with node := { s.node with internalDbPath := some path } }

end Configs

/-- `DB_PATH_FALLBACK`: the DB path of a node config whose path `init` has not set. -/
def dbPathFallback : String := "node_db"

/-- `DEFAULT_NODE_DB_PATH`. -/
def defaultNodeDbPath : String := "/var/ever/db"

/-- The validator of the "Specify node DB path" prompt. -/
def validateDbPath (input : String) : Except String Unit :=
  if isAbsolute input then .ok () else .error "Node DB path must be an absolute"

/-- Whether `setup_node_config_paths` keeps the DB path already set: there is one, and it is not
the path `node_db`. -/
def keepsDbPath : Option String → Bool
  | some dbPath => components dbPath != components dbPathFallback
  | none => false

/-- `setup_node_config_paths`, with `dirs.global_config()` and the lines the user types at the DB
path prompt; `none` is the error of the prompt. -/
def setupNodeConfigPaths (globalConfig : String) (lines : List String)
    (s : Configs Secret Pub Keys) : Option (Configs Secret Pub Keys) :=
  let s := s.setGlobalConfigPath globalConfig
  if keepsDbPath s.node.internalDbPath then some s.storeNode
  else (interactText defaultNodeDbPath validateDbPath lines).map fun path =>
    (s.setInternalDbPath path).storeNode

/-- The node config's paths are set: it names the global config, and a DB path other than
`node_db`. -/
def NodePathsSet (globalConfig : String) (node : NodeConfig Secret Pub Keys) : Prop :=
  node.globalConfigPath = some globalConfig ∧ keepsDbPath node.internalDbPath = true

/-- No absolute path is the fallback: a DB path the user typed is kept by the next run. -/
theorem keepsDbPath_of_isAbsolute {path : String} (h : isAbsolute path = true) :
    keepsDbPath (some path) = true := by
  simpa [keepsDbPath] using components_ne_of_isAbsolute h (by decide)

theorem validateDbPath_eq_ok {input : String} :
    validateDbPath input = .ok () ↔ isAbsolute input = true := by
  unfold validateDbPath
  split <;> simp_all

section Spec

variable {globalConfig : String} {lines : List String} {s s' : Configs Secret Pub Keys}

/-- **`setup_node_config_paths`.**  It stores the node config with its paths set, keeping the DB
path already set unless it is `node_db` or missing, and otherwise taking the default or an
absolute path the user typed.  Nothing else changes. -/
theorem setupNodeConfigPaths_spec (h : setupNodeConfigPaths globalConfig lines s = some s') :
    s'.storedNode = s'.node ∧ NodePathsSet globalConfig s'.node ∧
      (s'.node.internalDbPath = s.node.internalDbPath ∨
        ∃ path, s'.node.internalDbPath = some path ∧ isAbsolute path = true ∧
          (path = defaultNodeDbPath ∨ path ∈ lines)) ∧
      s'.app = s.app ∧ s'.storedApp = s.storedApp ∧
      s'.node.controlServer = s.node.controlServer ∧ s'.node.adnlNode = s.node.adnlNode := by
  dsimp only [setupNodeConfigPaths] at h
  split at h
  · rename_i hkeep
    cases h
    exact ⟨rfl, ⟨rfl, hkeep⟩, .inl rfl, rfl, rfl, rfl, rfl⟩
  · obtain ⟨path, hpath, rfl⟩ := Option.map_eq_some'.1 h
    obtain ⟨hv, hin⟩ := interactText_spec hpath
    have habs := validateDbPath_eq_ok.1 hv
    exact ⟨rfl, ⟨rfl, keepsDbPath_of_isAbsolute habs⟩, .inr ⟨path, rfl, habs, hin⟩, rfl, rfl,
      rfl, rfl⟩

/-- **Running it again.**  On a node config whose paths are set, `setup_node_config_paths` asks
nothing and stores the config as it is. -/
theorem setupNodeConfigPaths_of_set (hset : NodePathsSet globalConfig s.node) :
    setupNodeConfigPaths globalConfig lines s = some s.storeNode := by
  obtain ⟨hg, hkeep⟩ := hset
  have hs : s.setGlobalConfigPath globalConfig = s := by
    obtain ⟨app, ⟨_, _, _, _, _, _⟩, _, _⟩ := s
    cases hg
    rfl
  simp only [setupNodeConfigPaths, hs, hkeep, if_true]

end Spec

/-! ### The files -/

/-- The files of a node's setup under the paths of `ProjectDirs`.  A config file holds the config
last stored in it. -/
structure Files (Secret Pub Keys : Type) where
  /-- `dirs.root()` exists -/
  rootExists : Bool
  /-- the text of `dirs.global_config()` -/
  globalConfig : Option String
  /-- `dirs.node_config()` -/
  nodeConfig : Option (NodeConfig Secret Pub Keys)
  /-- `dirs.app_config()` -/
  appConfig : Option (AppConfig Secret Pub)
  /-- the bytes of `dirs.node_binary()`, if it exists -/
  nodeBinary : Option (List UInt8)

/-- The paths of `ProjectDirs` that `init` uses as data, and the names of the two services. -/
structure Dirs where
  /-- `dirs.root()` -/
  root : String
  /-- `dirs.global_config()` -/
  globalConfig : String
  /-- `dirs.node_binary()` -/
  nodeBinary : String
  /-- `dirs.node_configs_dir()` -/
  nodeConfigsDir : String
  /-- `VALIDATOR_SERVICE`, the service of `dirs.validator_service()` -/
  validatorService : String
  /-- `VALIDATOR_MANAGER_SERVICE`, the service of `dirs.validator_manager_service()` -/
  validatorManagerService : String

/-- What `CmdInit::run` gets from outside `init.rs`, and what the user types. -/
structure World (Secret Pub Keys : Type) where
  dirs : Dirs
  /-- `system::is_root()` -/
  isRoot : Bool
  /-- `GlobalConfig::MAINNET` -/
  mainnet : String
  /-- `GlobalConfig::TESTNET` -/
  testnet : String
  /-- the text at the URL the user gives for another network; `none` when the download fails -/
  download : Option String
  /-- `GlobalConfig::load`, then `zero_state.file_hash`; `none` on error -/
  zerostateFileHash : String → Option (List UInt8)
  /-- `NodeConfig::generate()`; `none` on error -/
  generateNodeConfig : Option (NodeConfig Secret Pub Keys)
  /-- `AppConfig::default()` -/
  defaultAppConfig : AppConfig Secret Pub
  /-- the lines the user types at "Specify node DB path" -/
  dbPathLines : List String
  /-- the node binary `install_node_from_repo` builds from the repo URL the user gives at "Node
  repo URL" and copies to `dirs.node_binary()`; `none` when the prompt or a step of it fails -/
  installNode : Option (List UInt8)

/-- `store_app_config` and `store_node_config`: the files hold the configs as last stored. -/
def Files.storeConfigs (f : Files Secret Pub Keys) (s : Configs Secret Pub Keys) :
    Files Secret Pub Keys :=
  { f with appConfig := some s.storedApp, nodeConfig := some s.storedNode }

/-! ### The steps before and after the configs -/

section Steps

variable (w : World Secret Pub Keys) (p : Prompter Secret Keys)

/-- `prepare_root_dir`: `false` when the user declines to create the missing root directory.  The
question is asked with the default `yes` for an absolute root. -/
def prepareRootDir (f : Files Secret Pub Keys) : Bool × Files Secret Pub Keys :=
  if f.rootExists then (true, f)
  else if p.confirm "Create stEVER root directory?" (isAbsolute w.dirs.root) then
    (true, { f with rootExists := true })
  else (false, f)

/-- The global config `load_global_config` stores when there is none: that of the network the
user selects, or the text at the URL they give. -/
def networkConfig : Option String :=
  match p.select "Select network" 3 with
  | 0 => some w.mainnet
  | 1 => some w.testnet
  | _ => w.download

/-- `load_global_config`: the zerostate file hash of the global config, stored first if missing;
`none` is an error. -/
def loadGlobalConfig (f : Files Secret Pub Keys) : Option (List UInt8) × Files Secret Pub Keys :=
  match f.globalConfig with
  | some data => (w.zerostateFileHash data, f)
  | none =>
    match networkConfig w p with
    | some data => (w.zerostateFileHash data, { f with globalConfig := some data })
    | none => (none, f)

/-- `load_node_config`: the node config, generated and stored if missing; `none` is an error. -/
def loadNodeConfig (f : Files Secret Pub Keys) :
    Option (NodeConfig Secret Pub Keys) × Files Secret Pub Keys :=
  match f.nodeConfig with
  | some node => (some node, f)
  | none =>
    match w.generateNodeConfig with
    | some node => (some node, { f with nodeConfig := some node })
    | none => (none, f)

/-- `load_app_config`: stEVER's app config, the default one stored if missing. -/
def loadAppConfig (f : Files Secret Pub Keys) : AppConfig Secret Pub × Files Secret Pub Keys :=
  match f.appConfig with
  | some app => (app, f)
  | none => (w.defaultAppConfig, { f with appConfig := some w.defaultAppConfig })

/-- `setup_binary`: the node binary, installed if missing; `none` is an error. -/
def setupBinary (f : Files Secret Pub Keys) : Option (Files Secret Pub Keys) :=
  if f.nodeBinary.isSome then some f
  else w.installNode.map fun binary => { f with nodeBinary := some binary }

/-- `f'` keeps what `init` never replaces in `f`: the root directory, the global config and the
node binary, once there, the last two with the same contents. -/
def Files.Keeps (f f' : Files Secret Pub Keys) : Prop :=
  (f.rootExists = true → f'.rootExists = true) ∧
    (∀ data, f.globalConfig = some data → f'.globalConfig = some data) ∧
    (∀ binary, f.nodeBinary = some binary → f'.nodeBinary = some binary)

theorem Files.Keeps.refl (f : Files Secret Pub Keys) : f.Keeps f :=
  ⟨id, fun _ => id, fun _ => id⟩

theorem Files.Keeps.trans {f f' f'' : Files Secret Pub Keys} (h : f.Keeps f') (h' : f'.Keeps f'') :
    f.Keeps f'' :=
  ⟨h'.1 ∘ h.1, fun data hd => h'.2.1 data (h.2.1 data hd),
    fun binary hb => h'.2.2 binary (h.2.2 binary hb)⟩

theorem Files.keeps_storeConfigs (f : Files Secret Pub Keys) (s : Configs Secret Pub Keys) :
    f.Keeps (f.storeConfigs s) :=
  Files.Keeps.refl f

section Spec

variable {f f' : Files Secret Pub Keys}

theorem prepareRootDir_true (h : prepareRootDir w p f = (true, f')) :
    f' = { f with rootExists := true } := by
  unfold prepareRootDir at h
  split_ifs at h with hr
  · cases h
    obtain ⟨_, _, _, _, _⟩ := f
    cases hr
    rfl
  · cases h
    rfl
  · cases h

theorem prepareRootDir_keeps : f.Keeps (prepareRootDir w p f).2 := by
  unfold prepareRootDir
  split_ifs
  · exact Files.Keeps.refl f
  · exact ⟨fun _ => rfl, fun _ => id, fun _ => id⟩
  · exact Files.Keeps.refl f

theorem loadGlobalConfig_some {z : List UInt8} (h : loadGlobalConfig w p f = (some z, f')) :
    ∃ data, f' = { f with globalConfig := some data } ∧ w.zerostateFileHash data = some z := by
  unfold loadGlobalConfig at h
  split at h
  · rename_i data hd
    obtain ⟨hz, rfl⟩ := Prod.mk.inj h
    refine ⟨data, ?_, hz⟩
    obtain ⟨_, _, _, _, _⟩ := f
    cases hd
    rfl
  · split at h
    · obtain ⟨hz, rfl⟩ := Prod.mk.inj h
      exact ⟨_, rfl, hz⟩
    · cases h

theorem loadGlobalConfig_keeps : f.Keeps (loadGlobalConfig w p f).2 := by
  unfold loadGlobalConfig
  split
  · exact Files.Keeps.refl f
  · rename_i hnone
    split
    · exact ⟨id, fun data hd => by simp [hnone] at hd, fun _ => id⟩
    · exact Files.Keeps.refl f

theorem loadNodeConfig_some {node : NodeConfig Secret Pub Keys}
    (h : loadNodeConfig w f = (some node, f')) : f' = { f with nodeConfig := some node } := by
  unfold loadNodeConfig at h
  split at h
  · rename_i hn
    cases h
    obtain ⟨_, _, _, _, _⟩ := f
    cases hn
    rfl
  · split at h
    · cases h
      rfl
    · cases h

theorem loadNodeConfig_keeps : f.Keeps (loadNodeConfig w f).2 := by
  unfold loadNodeConfig
  split
  · exact Files.Keeps.refl f
  · split
    · exact Files.Keeps.refl _
    · exact Files.Keeps.refl f

theorem loadAppConfig_eq : (loadAppConfig w f).2 = { f with appConfig := some (loadAppConfig w f).1 } := by
  unfold loadAppConfig
  split
  · rename_i app ha
    obtain ⟨_, _, _, _, _⟩ := f
    cases ha
    rfl
  · rfl

theorem loadAppConfig_keeps : f.Keeps (loadAppConfig w f).2 := by
  rw [loadAppConfig_eq]
  exact Files.Keeps.refl f

/-- `setup_binary` changes no file but the node binary, which it leaves there, and it keeps a
binary that is there. -/
theorem setupBinary_some (h : setupBinary w f = some f') :
    ∃ binary, f' = { f with nodeBinary := some binary } ∧
      ∀ old, f.nodeBinary = some old → binary = old := by
  obtain ⟨_, _, _, _, _ | binary⟩ := f <;> simp only [setupBinary, Option.isSome_none,
    Option.isSome_some, Bool.false_eq_true, if_false, if_true] at h
  · obtain ⟨binary, -, rfl⟩ := Option.map_eq_some'.1 h
    exact ⟨binary, rfl, nofun⟩
  · cases h
    exact ⟨binary, rfl, fun _ => Option.some.inj⟩

theorem setupBinary_of_installed (h : f.nodeBinary.isSome = true) : setupBinary w f = some f := by
  simp [setupBinary, h]

theorem setupBinary_keeps (h : setupBinary w f = some f') : f.Keeps f' := by
  obtain ⟨binary, rfl, hold⟩ := setupBinary_some w h
  exact ⟨id, fun _ => id, fun old h => congrArg some (hold old h)⟩

end Spec

end Steps

end Nodekeeper.Cli
