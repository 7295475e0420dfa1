import Nodekeeper.Cli.Systemd

/-!
# `init.rs` — `CmdInit::run`

`CmdInit::run` prepares the configs (`CmdInit.configure`: the root directory, the three configs,
`setup_control_server`, `setup_adnl` and `setup_node_config_paths`), then the node binary, and
as root ends as `CmdInitSystemd::run` does.  It returns `Ok(())` both where the user declines a
step and at its end; `Outcome` tells the two apart.

* `CmdInit.run_initialized`: a run that goes to its end leaves the node set up (`Initialized`):
  the root directory, a global config that loads, stored configs that agree on the control
  server and on ADNL for that network, the node config's paths, and the node binary.
* `CmdInit.run_of_initialized`: on a set-up node a run changes no file of the setup and never
  stops, whatever the user answers; not as root it changes nothing, and it goes to its end
  exactly when `check_systemd_service` finds the path of the running program.
* `CmdInit.run_keeps`: no run removes the root directory, replaces the global config or
  replaces the node binary.
-/

namespace Nodekeeper.Cli

variable {Secret Pub Keys : Type}

/-- How `CmdInit::run` ends: `Ok(())` where the user declines a step (`stopped`) or at the end
(`completed`), or an error. -/
inductive Outcome
  | stopped
  | completed
  | failed
  deriving DecidableEq, Repr

section Run

variable [DecidableEq Pub] (w : World Secret Pub Keys) (host : Host) (cr : Crypto Secret Pub Keys)
  (p : Prompter Secret Keys)

/-- `CmdInit::run` from the loaded configs through `setup_node_config_paths`, for the zerostate
file hash of the global config.  On an error of `setup_adnl` the files hold the configs as
`setup_control_server` left them. -/
def CmdInit.reconcile (zerostateFileHash : List UInt8) (s : Configs Secret Pub Keys)
    (f : Files Secret Pub Keys) : Outcome × Files Secret Pub Keys :=
  match setupConfigs cr p zerostateFileHash s with
  | none => (.failed, f.storeConfigs (setupControlServer cr p s).2)
  | some (false, s) => (.stopped, f.storeConfigs s)
  | some (true, s) =>
    match setupNodeConfigPaths w.dirs.globalConfig w.dbPathLines s with
    | none => (.failed, f.storeConfigs s)
    | some s => (.completed, f.storeConfigs s)

/-- The step "Preparing configs" of `CmdInit::run`; `completed` goes on to the binary. -/
def CmdInit.configure (f : Files Secret Pub Keys) : Outcome × Files Secret Pub Keys :=
  match prepareRootDir w p f with
  | (false, f) => (.stopped, f)
  | (true, f) =>
    match loadGlobalConfig w p f with
    | (none, f) => (.failed, f)
    | (some zerostateFileHash, f) =>
      match loadNodeConfig w f with
      | (none, f) => (.failed, f)
      | (some node, f) =>
        match loadAppConfig w f with
        | (app, f) => CmdInit.reconcile w cr p zerostateFileHash ⟨app, node, app, node⟩ f

/-- `check_systemd_service`: the error of `std::env::current_exe()`, else `Ok(())`.  The hint it
prints when a unit file is missing is output only. -/
def checkSystemdService (host : Host) : Except String Unit :=
  match host.currentExe with
  | .ok _ => .ok ()
  | .error e => .error e

/-- The steps of `CmdInit::run` from "Preparing binary" on. -/
def CmdInit.finish (m : Machine Secret Pub Keys) : Outcome × Machine Secret Pub Keys :=
  match setupBinary w m.files with
  | none => (.failed, m)
  | some files =>
    if w.isRoot then
      match CmdInitSystemd.run host p w.dirs { m with files := files } with
      | (.ok (), m) => (.completed, m)
      | (.error _, m) => (.failed, m)
    else
      match checkSystemdService host with
      | .ok () => (.completed, { m with files := files })
      | .error _ => (.failed, { m with files := files })

/-- `CmdInit::run`. -/
def CmdInit.run (m : Machine Secret Pub Keys) : Outcome × Machine Secret Pub Keys :=
  match CmdInit.configure w cr p m.files with
  | (.completed, files) => CmdInit.finish w host p { m with files := files }
  | (outcome, files) => (outcome, { m with files := files })

/-- The node is set up: the root directory, a global config that loads, stored configs that
agree on the control server and, for the network of the global config, on ADNL, the node
config's paths, and the node binary. -/
structure Initialized (f : Files Secret Pub Keys) : Prop where
  rootExists : f.rootExists = true
  configs : ∃ data zerostateFileHash app node, f.globalConfig = some data ∧
    w.zerostateFileHash data = some zerostateFileHash ∧
    f.appConfig = some app ∧ f.nodeConfig = some node ∧
    ControlAgree cr app node ∧ AdnlAgree cr zerostateFileHash app node ∧
    NodePathsSet w.dirs.globalConfig node
  nodeBinary : f.nodeBinary.isSome = true

end Run

section Spec

variable [DecidableEq Pub] {w : World Secret Pub Keys} {host : Host}
  {cr : Crypto Secret Pub Keys} {p : Prompter Secret Keys} {f f' : Files Secret Pub Keys}
  {m : Machine Secret Pub Keys}

theorem CmdInit.reconcile_completed {zerostateFileHash : List UInt8} {s : Configs Secret Pub Keys}
    (hs : s.Synced) (h : CmdInit.reconcile w cr p zerostateFileHash s f = (.completed, f')) :
    ∃ app node, f' = { f with appConfig := some app, nodeConfig := some node } ∧
      ControlAgree cr app node ∧ AdnlAgree cr zerostateFileHash app node ∧
      NodePathsSet w.dirs.globalConfig node := by
  unfold CmdInit.reconcile at h
  split at h
  · cases h
  · cases h
  · rename_i s₂ hsc
    split at h
    · cases h
    · rename_i s₃ hn
      cases h
      obtain ⟨hs₂, hctl, hadnl⟩ := agree_of_setup cr p zerostateFileHash hs hsc
      obtain ⟨hsn, hset, -, happ, hsapp, hcs, han⟩ := setupNodeConfigPaths_spec hn
      have happ' : s₃.storedApp = s₃.app := by rw [hsapp, hs₂.1, happ]
      refine ⟨s₃.storedApp, s₃.storedNode, rfl, ?_⟩
      rw [happ', hsn]
      exact ⟨hctl.congr cr (congrArg AppConfig.control happ) hcs,
        hadnl.congr cr (congrArg AppConfig.adnl happ) han, hset⟩

theorem CmdInit.reconcile_keeps {zerostateFileHash : List UInt8} {s : Configs Secret Pub Keys} :
    f.Keeps (CmdInit.reconcile w cr p zerostateFileHash s f).2 := by
  unfold CmdInit.reconcile
  repeat' split
  all_goals exact f.keeps_storeConfigs _

/-- "Preparing configs" ends `completed` with the node's files set up but for the binary, which
it leaves as it was. -/
theorem CmdInit.configure_completed (h : CmdInit.configure w cr p f = (.completed, f')) :
    f'.rootExists = true ∧ f'.nodeBinary = f.nodeBinary ∧
      ∃ data zerostateFileHash app node, f'.globalConfig = some data ∧
        w.zerostateFileHash data = some zerostateFileHash ∧
        f'.appConfig = some app ∧ f'.nodeConfig = some node ∧
        ControlAgree cr app node ∧ AdnlAgree cr zerostateFileHash app node ∧
        NodePathsSet w.dirs.globalConfig node := by
  unfold CmdInit.configure at h
  split at h
  · cases h
  · rename_i f₁ hr
    split at h
    · cases h
    · rename_i z f₂ hg
      split at h
      · cases h
      · rename_i node f₃ hn
        split at h
        rename_i app f₄ ha
        obtain ⟨app', node', rfl, hagree⟩ := CmdInit.reconcile_completed ⟨rfl, rfl⟩ h
        obtain ⟨data, rfl, hz⟩ := loadGlobalConfig_some w p hg
        cases prepareRootDir_true w p hr
        cases loadNodeConfig_some w hn
        have : f₄ = _ := (congrArg Prod.snd ha).symm.trans (loadAppConfig_eq w)
        subst this
        exact ⟨rfl, rfl, data, z, app', node', rfl, hz, rfl, rfl, hagree⟩

theorem CmdInit.configure_keeps : f.Keeps (CmdInit.configure w cr p f).2 := by
  unfold CmdInit.configure
  have hroot := prepareRootDir_keeps w p (f := f)
  split
  · rename_i f₁ hr
    rw [hr] at hroot
    exact hroot
  · rename_i f₁ hr
    rw [hr] at hroot
    have hglobal := loadGlobalConfig_keeps w p (f := f₁)
    split
    · rename_i f₂ hg
      rw [hg] at hglobal
      exact hroot.trans hglobal
    · rename_i z f₂ hg
      rw [hg] at hglobal
      have hnode := loadNodeConfig_keeps w (f := f₂)
      split
      · rename_i f₃ hn
        rw [hn] at hnode
        exact hroot.trans (hglobal.trans hnode)
      · rename_i node f₃ hn
        rw [hn] at hnode
        have happ := loadAppConfig_keeps w (f := f₃)
        split
        rename_i app f₄ ha
        rw [ha] at happ
        exact hroot.trans (hglobal.trans (hnode.trans (happ.trans CmdInit.reconcile_keeps)))

/-- On a set-up node, "Preparing configs" asks nothing and changes nothing. -/
theorem CmdInit.configure_of_initialized (hi : Initialized w cr f) :
    CmdInit.configure w cr p f = (.completed, f) := by
  obtain ⟨hr, ⟨data, z, app, node, hg, hz, ha, hn, hctl, hadnl, hset⟩, -⟩ := hi
  have hs : (⟨app, node, app, node⟩ : Configs Secret Pub Keys).storeNode = ⟨app, node, app, node⟩ :=
    Configs.storeNode_eq_self rfl
  have hf : f.storeConfigs ⟨app, node, app, node⟩ = f := by
    obtain ⟨_, _, _, _, _⟩ := f
    cases ha
    cases hn
    rfl
  simp only [CmdInit.configure, prepareRootDir, hr, if_true, loadGlobalConfig, hg, hz,
    loadNodeConfig, hn, loadAppConfig, ha, CmdInit.reconcile, setupConfigs,
    setupControlServer_of_agree cr p (s := ⟨app, node, app, node⟩) hctl,
    setupAdnl_of_agree cr p (s := ⟨app, node, app, node⟩) hadnl,
    setupNodeConfigPaths_of_set (s := ⟨app, node, app, node⟩) hset, hs, hf]

omit [DecidableEq Pub] in
/-- "Preparing binary" and what follows fail with the files as they were, or leave the files
`setup_binary` made: the systemd part touches none. -/
theorem CmdInit.finish_files :
    ((CmdInit.finish w host p m).1 = .failed ∧ (CmdInit.finish w host p m).2.files = m.files) ∨
      setupBinary w m.files = some (CmdInit.finish w host p m).2.files := by
  unfold CmdInit.finish
  rcases hb : setupBinary w m.files with _ | f₂
  · exact .inl ⟨rfl, rfl⟩
  · refine .inr ?_
    cases w.isRoot
    · simp only [Bool.false_eq_true, if_false]
      split <;> rfl
    · have hfiles := @CmdInitSystemd.run_files _ _ _ host { m with files := f₂ } p w.dirs
      simp only [if_true]
      split <;> rename_i hrun <;> rw [hrun] at hfiles <;> rw [hfiles]

/-- **After `init`.**  A run of `CmdInit::run` that goes to its end leaves the node set up: the
root directory, a global config that loads, stored configs that agree on the control server and
on ADNL for the network of the global config, the node config's paths, and the node binary. -/
theorem CmdInit.run_initialized (h : (CmdInit.run w host cr p m).1 = .completed) :
    Initialized w cr (CmdInit.run w host cr p m).2.files := by
  rcases hc : CmdInit.configure w cr p m.files with ⟨_ | _ | _, f₁⟩ <;>
    simp only [CmdInit.run, hc] at h ⊢
  · cases h
  case completed =>
    obtain ⟨hr, -, hconf⟩ := CmdInit.configure_completed hc
    rcases @CmdInit.finish_files _ _ _ w host p { m with files := f₁ } with ⟨hf, -⟩ | hb
    · rw [hf] at h
      cases h
    · obtain ⟨binary, hf, -⟩ := setupBinary_some w hb
      rw [hf]
      exact ⟨hr, hconf, rfl⟩
  · cases h

/-- A world where the node config comes without a DB path, the user takes the default one, and
the node installs. -/
def demoWorld : World Nat Nat Nat where
  dirs := ⟨"/home/user/.stever", "/home/user/.stever/node/global-config.json",
    "/home/user/.stever/bin/ton_node", "/home/user/.stever/node", "ever-validator",
    "ever-validator-manager"⟩
  isRoot := false
  mainnet := "mainnet"
  testnet := "testnet"
  download := none
  zerostateFileHash _ := some []
  generateNodeConfig := some ⟨none, none, none, none, none, none⟩
  defaultAppConfig := ⟨none, none⟩
  dbPathLines := [""]
  installNode := some [0x7f, 0x45, 0x4c, 0x46]

/-- A fresh machine: nothing is there yet. -/
def demoMachine : Machine Nat Nat Nat := ⟨⟨false, none, none, none, none⟩, none, none, []⟩

theorem demo_run_initialized :
    (CmdInit.run demoWorld demoHost demoCrypto demoPrompter demoMachine).1 = .completed ∧
      Initialized demoWorld demoCrypto
        (CmdInit.run demoWorld demoHost demoCrypto demoPrompter demoMachine).2.files :=
  have h : (CmdInit.run demoWorld demoHost demoCrypto demoPrompter demoMachine).1 = .completed :=
    rfl
  ⟨h, CmdInit.run_initialized h⟩

/-- The node `init` sets up in `demoWorld` for `demoPrompter`. -/
def demoSetUp : Machine Nat Nat Nat :=
  let app : AppConfig Nat Nat :=
    ⟨some ⟨⟨localhost, 5031⟩, 101, 2⟩, some ⟨5032, ⟨localhost, 30100⟩, 207, []⟩⟩
  let node : NodeConfig Nat Nat Nat :=
    ⟨some ⟨⟨localhost, 5031⟩, 1, some [102]⟩, some ⟨⟨localhost, 30100⟩, 7⟩, none, none,
      some "/home/user/.stever/node/global-config.json", some "/var/ever/db"⟩
  ⟨⟨true, some "mainnet", some node, some app, some [0x7f, 0x45, 0x4c, 0x46]⟩, none, none, []⟩

/-- The first run on the fresh machine sets up `demoSetUp`. -/
example : CmdInit.run demoWorld demoHost demoCrypto demoPrompter demoMachine = (.completed, demoSetUp) :=
  rfl

/-- Not as root, where `std::env::current_exe()` fails, the run sets the node up and then
fails. -/
example : CmdInit.run demoWorld { demoHost with currentExe := .error "not found" } demoCrypto
    demoPrompter demoMachine = (.failed, demoSetUp) :=
  rfl

/-- **What `init` never undoes.**  No run of `CmdInit::run`, whatever the user answers and
wherever it stops or fails, removes the root directory, replaces the global config, or replaces
the node binary: what is there keeps its contents. -/
theorem CmdInit.run_keeps : m.files.Keeps (CmdInit.run w host cr p m).2.files := by
  have hconf := @CmdInit.configure_keeps _ _ _ _ w cr p m.files
  unfold CmdInit.run
  split
  · rename_i f₁ hc
    rw [hc] at hconf
    rcases @CmdInit.finish_files _ _ _ w host p { m with files := f₁ } with ⟨-, hf⟩ | hb
    · rw [hf]
      exact hconf
    · exact hconf.trans (setupBinary_keeps w hb)
  · rename_i outcome f₁ _ hc
    rw [hc] at hconf
    exact hconf

end Spec

end Nodekeeper.Cli
