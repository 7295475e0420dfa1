import Nodekeeper.Cli.Init

/-!
# `init.rs` — the systemd services

`prepare_services` picks the user the services run as and writes the units of the validator and
of the validator manager from the templates `validator_service!` and `validator_manager_service!`;
`CmdInitSystemd::run` then reloads systemd and `start_services` enables (or disables) and
restarts the services.  The host is a parameter (`Host`); a command is recorded in
`Machine.commands` and succeeds as `Host.exec` says.

* `serviceUser_spec`: the services run as root, or as the user who ran `init`, directly or
  through `sudo`.
* `parseUnit_renderUnit`: reading a unit file back, line by line as sections and assignments,
  gives the unit that was written, when no substituted value holds a newline.  The two templates
  are such units (`validatorServiceUnit_wellFormed`, `validatorManagerServiceUnit_wellFormed`).
* `CmdInitSystemd.run_spec`: the commands a run adds are a prefix of `daemon-reload`, then
  `enable` or `disable`, then a `restart` per service, and a run adds any only after writing both
  units for the chosen user.
-/

namespace Nodekeeper.Cli

variable {Secret Pub Keys : Type}

/-- What the systemd part of `init` asks of the host. -/
structure Host where
  /-- `system::user_id()` -/
  userId : Nat
  /-- `system::get_sudo_uid()` -/
  sudoUid : Option Nat
  /-- `system::user_name(uid)` -/
  userName : Nat → Option String
  /-- `std::fs::canonicalize`, displayed; `none` on error -/
  canonicalize : String → Option String
  /-- `std::env::current_exe()`, displayed, or its error -/
  currentExe : Except String String
  /-- `exec`: the command ran and exited with success -/
  exec : List String → Bool

/-! ### The user of the services -/

/-- `ROOT_USER`. -/
def rootUser : String := "root"

/-- `other_user` of `prepare_services`: the user who ran `init`, directly or through `sudo`;
`none` for root itself. -/
def otherUser (uid : Nat) (sudoUid : Option Nat) : Option Nat :=
  match uid with
  | 0 =>
    match sudoUid with
    | some 0 => none
    | uid => uid
  | uid => some uid

/-- The user `prepare_services` writes in both units: the other user or root, as the user
selects, or else the name of the current user. -/
def serviceUser (p : Prompter Secret Keys) (host : Host) : Except String String :=
  match otherUser host.userId host.sudoUid with
  | some uid =>
    match host.userName uid with
    | some otherUser =>
      match p.select "Select the user from which the service will work" 2 with
      | 0 => .ok otherUser
      | _ => .ok rootUser
    | none => .error "failed to get user name"
  | none => .ok ((host.userName host.userId).getD rootUser)

/-- The other user is the current one, or the one `sudo` names when running as root. -/
theorem otherUser_spec {uid u : Nat} {sudoUid : Option Nat} (h : otherUser uid sudoUid = some u) :
    u = uid ∨ uid = 0 ∧ sudoUid = some u := by
  unfold otherUser at h
  split at h
  · split at h <;> simp_all
  · exact .inl (Option.some.inj h).symm

/-- **Who runs the services.**  The units name root, or the user who ran `init`: directly, or
through `sudo`. -/
theorem serviceUser_spec {p : Prompter Secret Keys} {host : Host} {user : String}
    (h : serviceUser p host = .ok user) :
    user = rootUser ∨ ∃ uid, host.userName uid = some user ∧
      (uid = host.userId ∨ host.userId = 0 ∧ host.sudoUid = some uid) := by
  unfold serviceUser at h
  split at h
  · rename_i uid hu
    split at h
    · rename_i name hn
      split at h <;> cases h
      · exact .inr ⟨uid, hn, otherUser_spec hu⟩
      · exact .inl rfl
    · cases h
  · cases h
    cases hn : host.userName host.userId with
    | none => exact .inl rfl
    | some name => exact .inr ⟨host.userId, hn, .inl rfl⟩

/-- A user, uid 1000, who runs every command. -/
def demoHost : Host := ⟨1000, none, fun _ => some "user", some, .ok "/usr/bin/stever", fun _ => true⟩

theorem demo_serviceUser :
    serviceUser demoPrompter demoHost = .ok "user" ∧
      ("user" = rootUser ∨ ∃ uid, demoHost.userName uid = some "user" ∧
        (uid = demoHost.userId ∨ demoHost.userId = 0 ∧ demoHost.sudoUid = some uid)) :=
  have h : serviceUser demoPrompter demoHost = .ok "user" := rfl
  ⟨h, serviceUser_spec h⟩

/-! ### Unit files -/

/-- A line of a unit file: a section header, an assignment, or an empty line. -/
inductive UnitLine
  | header (name : String)
  | assign (key value : String)
  | blank
  deriving DecidableEq, Repr

/-- The text of a line. -/
def UnitLine.text : UnitLine → String
  | .header name => "[" ++ name ++ "]"
  | .assign key value => key ++ "=" ++ value
  | .blank => ""

/-- The text of a unit file: each line followed by a newline, as the templates are written. -/
def renderUnit (lines : List UnitLine) : String :=
  ⟨lines.flatMap fun line => line.text.data ++ ['\n']⟩

/-- `validator_service!()` with `user`, `node_binary` and `configs_dir`. -/
def validatorServiceUnit (user nodeBinary configsDir : String) : List UnitLine :=
  [.header "Unit", .assign "Description" "Everscale Validator Node",
    .assign "After" "network.target", .assign "StartLimitIntervalSec" "0", .blank,
    .header "Service", .assign "Type" "simple", .assign "Restart" "always",
    .assign "RestartSec" "1", .assign "User" user, .assign "LimitNOFILE" "2048000",
    .assign "ExecStart" (nodeBinary ++ " --configs " ++ configsDir), .blank,
    .header "Install", .assign "WantedBy" "multi-user.target"]

/-- `validator_manager_service!()` with `user`, `stever_binary` and `root_dir`. -/
def validatorManagerServiceUnit (user steverBinary rootDir : String) : List UnitLine :=
  [.header "Unit", .assign "Description" "Everscale Validator Manager",
    .assign "After" "network.target", .assign "StartLimitIntervalSec" "0", .blank,
    .header "Service", .assign "Type" "simple", .assign "Restart" "always",
    .assign "RestartSec" "1", .assign "User" user,
    .assign "ExecStart" (steverBinary ++ " --root " ++ rootDir ++ " validate"), .blank,
    .header "Install", .assign "WantedBy" "multi-user.target"]

/-- The lines of a text, after the characters `line` already read: the text is cut at each
newline, and a last line without one counts too. -/
def splitLines (line : List Char) : List Char → List (List Char)
  | [] => if line.isEmpty then [] else [line]
  | c :: cs => if c = '\n' then line :: splitLines [] cs else splitLines (line ++ [c]) cs

/-- A line as a unit file is read: `[name]` opens a section, a line with `=` assigns what follows
the first `=` to the key before it; other lines are empty. -/
def parseLine (line : List Char) : UnitLine :=
  if line.head? = some '[' ∧ line.getLast? = some ']' then .header ⟨(line.drop 1).dropLast⟩
  else if '=' ∈ line then
    .assign ⟨line.takeWhile (· != '=')⟩ ⟨(line.dropWhile (· != '=')).drop 1⟩
  else .blank

/-- A unit file, read line by line. -/
def parseUnit (text : String) : List UnitLine := (splitLines [] text.data).map parseLine

/-- A line that reads back as written: no newline anywhere, a key without `=` that does not
start a header, and nothing but an empty line is empty. -/
def UnitLine.WellFormed : UnitLine → Prop
  | .header name => '\n' ∉ name.data
  | .assign key value =>
    '\n' ∉ key.data ∧ '=' ∉ key.data ∧ key.data.head? ≠ some '[' ∧ '\n' ∉ value.data
  | .blank => True

theorem splitLines_append {line l : List Char} (rest : List Char) (hl : '\n' ∉ l) :
    splitLines line (l ++ '\n' :: rest) = (line ++ l) :: splitLines [] rest := by
  induction l generalizing line with
  | nil => simp [splitLines]
  | cons c l ih =>
    have hc : c ≠ '\n' := fun h => hl (h ▸ List.mem_cons_self _ _)
    rw [List.cons_append, splitLines, if_neg hc, ih (fun h => hl (List.mem_cons_of_mem _ h)),
      List.append_assoc, List.singleton_append]

theorem parseLine_text {line : UnitLine} (h : line.WellFormed) : parseLine line.text.data = line := by
  cases line with
  | header name =>
    have htext : (UnitLine.header name).text.data = ('[' :: name.data) ++ [']'] := by
      simp [UnitLine.text, String.data_append]
    rw [htext, parseLine, if_pos ⟨rfl, List.getLast?_concat _⟩, List.drop_one, List.cons_append,
      List.tail_cons, List.dropLast_concat]
  | assign key value =>
    obtain ⟨-, hkey, hhead, -⟩ := h
    have htext : (UnitLine.assign key value).text.data = key.data ++ '=' :: value.data := by
      simp [UnitLine.text, String.data_append]
    have hne : ∀ c ∈ key.data, (c != '=') = true := fun c hc => by
      simpa using fun h : c = '=' => hkey (h ▸ hc)
    have hnh : (key.data ++ '=' :: value.data).head? ≠ some '[' := by
      cases hk : key.data <;> simp_all
    rw [htext, parseLine, if_neg fun h => hnh h.1, if_pos (by simp),
      List.takeWhile_append_of_pos hne, List.dropWhile_append_of_pos hne]
    simp
  | blank => rfl

theorem text_newline_free {line : UnitLine} (h : line.WellFormed) : '\n' ∉ line.text.data := by
  cases line with
  | header name => simpa [UnitLine.text, String.data_append] using h
  | assign key value => simpa [UnitLine.text, String.data_append] using ⟨h.1, h.2.2.2⟩
  | blank => nofun

/-- **Units read back.**  A unit file of well-formed lines reads back as the lines written. -/
theorem parseUnit_renderUnit {lines : List UnitLine} (h : ∀ line ∈ lines, line.WellFormed) :
    parseUnit (renderUnit lines) = lines := by
  unfold parseUnit renderUnit
  induction lines with
  | nil => rfl
  | cons line lines ih =>
    have hl := h line (List.mem_cons_self _ _)
    rw [List.flatMap_cons, List.append_assoc, List.singleton_append,
      splitLines_append _ (text_newline_free hl), List.map_cons, List.nil_append,
      parseLine_text hl, ih fun l hm => h l (List.mem_cons_of_mem _ hm)]

theorem validatorServiceUnit_wellFormed {user nodeBinary configsDir : String}
    (hu : '\n' ∉ user.data) (hn : '\n' ∉ nodeBinary.data) (hc : '\n' ∉ configsDir.data) :
    ∀ line ∈ validatorServiceUnit user nodeBinary configsDir, line.WellFormed := by
  simp only [validatorServiceUnit, List.mem_cons, List.mem_singleton, List.not_mem_nil, or_false]
  rintro _ (rfl | rfl | rfl | rfl | rfl | rfl | rfl | rfl | rfl | rfl | rfl | rfl | rfl | rfl | rfl)
  all_goals simp only [UnitLine.WellFormed]
  all_goals first
    | trivial
    | decide
    | exact ⟨by decide, by decide, by decide, by simp [String.data_append, hu, hn, hc]⟩

theorem validatorManagerServiceUnit_wellFormed {user steverBinary rootDir : String}
    (hu : '\n' ∉ user.data) (hs : '\n' ∉ steverBinary.data) (hr : '\n' ∉ rootDir.data) :
    ∀ line ∈ validatorManagerServiceUnit user steverBinary rootDir, line.WellFormed := by
  simp only [validatorManagerServiceUnit, List.mem_cons, List.mem_singleton, List.not_mem_nil,
    or_false]
  rintro _ (rfl | rfl | rfl | rfl | rfl | rfl | rfl | rfl | rfl | rfl | rfl | rfl | rfl | rfl)
  all_goals simp only [UnitLine.WellFormed]
  all_goals first
    | trivial
    | decide
    | exact ⟨by decide, by decide, by decide, by simp [String.data_append, hu, hs, hr]⟩

theorem count_le_length_splitLines (line cs : List Char) :
    cs.count '\n' ≤ (splitLines line cs).length := by
  induction cs generalizing line with
  | nil => exact Nat.zero_le _
  | cons c cs ih =>
    by_cases hc : c = '\n'
    · have := ih []
      simp only [List.count_cons, splitLines, hc, beq_self_eq_true, if_true, List.length_cons]
      omega
    · have := ih (line ++ [c])
      simp only [List.count_cons, splitLines, hc, beq_iff_eq, if_false]
      omega

/-- Each line adds its newline to the text, and a line holding a newline one more. -/
theorem length_lt_count_renderUnit {lines : List UnitLine} {line : UnitLine} (hl : line ∈ lines)
    (hn : '\n' ∈ line.text.data) : lines.length < (renderUnit lines).data.count '\n' := by
  have hall : ∀ lines : List UnitLine, lines.length ≤ (renderUnit lines).data.count '\n' := by
    intro lines
    induction lines with
    | nil => exact Nat.zero_le _
    | cons l ls ih =>
      simp only [renderUnit, List.flatMap_cons, List.count_append] at ih ⊢
      simp only [List.length_cons, List.count_singleton_self]
      omega
  induction lines with
  | nil => cases hl
  | cons l ls ih =>
    simp only [renderUnit, List.flatMap_cons, List.count_append, List.length_cons,
      List.count_singleton_self] at ih ⊢
    rcases List.mem_cons.1 hl with rfl | hm
    · have := List.count_pos_iff.2 hn
      have := hall ls
      simp only [renderUnit] at this
      omega
    · have := ih hm
      omega

/-- A line holding a newline splits: the file reads back as more lines than were written. -/
theorem parseUnit_renderUnit_ne {lines : List UnitLine} {line : UnitLine} (hl : line ∈ lines)
    (hn : '\n' ∈ line.text.data) : parseUnit (renderUnit lines) ≠ lines := fun h => by
  have hlen := congrArg List.length h
  rw [parseUnit, List.length_map] at hlen
  have := count_le_length_splitLines [] (renderUnit lines).data
  have := length_lt_count_renderUnit hl hn
  omega

/-- A value holding a newline splits its line. -/
theorem parseUnit_renderUnit_ne_of_value {lines : List UnitLine} (key value : String)
    (hl : UnitLine.assign key value ∈ lines) (hv : '\n' ∈ value.data) :
    parseUnit (renderUnit lines) ≠ lines :=
  parseUnit_renderUnit_ne hl (by simp [UnitLine.text, String.data_append, hv])

/-- **The units read back.**  The unit files of the validator and of the validator manager read
back as the templates with the user and the paths substituted, exactly when none of these holds a
newline; a newline would cut a line in two. -/
theorem units_read_back (user nodeBinary configsDir steverBinary rootDir : String) :
    (parseUnit (renderUnit (validatorServiceUnit user nodeBinary configsDir)) =
        validatorServiceUnit user nodeBinary configsDir ↔
      '\n' ∉ user.data ∧ '\n' ∉ nodeBinary.data ∧ '\n' ∉ configsDir.data) ∧
    (parseUnit (renderUnit (validatorManagerServiceUnit user steverBinary rootDir)) =
        validatorManagerServiceUnit user steverBinary rootDir ↔
      '\n' ∉ user.data ∧ '\n' ∉ steverBinary.data ∧ '\n' ∉ rootDir.data) := by
  constructor
  · refine ⟨fun h => ⟨fun hu => ?_, fun hn => ?_, fun hc => ?_⟩,
      fun ⟨hu, hn, hc⟩ => parseUnit_renderUnit (validatorServiceUnit_wellFormed hu hn hc)⟩
    · exact parseUnit_renderUnit_ne_of_value "User" user (by simp [validatorServiceUnit]) hu h
    all_goals
      exact parseUnit_renderUnit_ne_of_value "ExecStart"
        (nodeBinary ++ " --configs " ++ configsDir) (by simp [validatorServiceUnit])
        (by simp [String.data_append, *]) h
  · refine ⟨fun h => ⟨fun hu => ?_, fun hs => ?_, fun hr => ?_⟩,
      fun ⟨hu, hs, hr⟩ => parseUnit_renderUnit (validatorManagerServiceUnit_wellFormed hu hs hr)⟩
    · exact parseUnit_renderUnit_ne_of_value "User" user (by simp [validatorManagerServiceUnit]) hu h
    all_goals
      exact parseUnit_renderUnit_ne_of_value "ExecStart"
        (steverBinary ++ " --root " ++ rootDir ++ " validate")
        (by simp [validatorManagerServiceUnit]) (by simp [String.data_append, *]) h

/-! ### Commands -/

/-- What `init` reads and changes on the machine: the files of the setup, the two units, and the
commands it has run, each a program and its arguments, in order. -/
structure Machine (Secret Pub Keys : Type) where
  files : Files Secret Pub Keys
  /-- the text of `dirs.validator_service()` -/
  validatorService : Option String
  /-- the text of `dirs.validator_manager_service()` -/
  validatorManagerService : Option String
  commands : List (List String)

namespace Machine

/-- The machine after running `commands`, nothing else changed. -/
def ran (m : Machine Secret Pub Keys) (commands : List (List String)) : Machine Secret Pub Keys :=
  { m with commands := m.commands ++ commands }

@[simp] theorem ran_nil (m : Machine Secret Pub Keys) : m.ran [] = m := by
  simp [ran]

@[simp] theorem ran_ran (m : Machine Secret Pub Keys) (a b : List (List String)) :
    (m.ran a).ran b = m.ran (a ++ b) := by
  simp [ran]

/-- `exec(command).context(context)`: the command is run, and the step fails with `context`
unless it exits with success. -/
def exec (host : Host) (m : Machine Secret Pub Keys) (command : List String) (context : String) :
    Except String Unit × Machine Secret Pub Keys :=
  (if host.exec command then .ok () else .error context, m.ran [command])

/-- `step?; next`: `next` runs on the machine `step` leaves when `step` succeeds. -/
def seq (step : Except String Unit × Machine Secret Pub Keys)
    (next : Machine Secret Pub Keys → Except String Unit × Machine Secret Pub Keys) :
    Except String Unit × Machine Secret Pub Keys :=
  match step with
  | (.ok (), m) => next m
  | (.error e, m) => (.error e, m)

end Machine

/-- The command of `systemd_daemon_reload`. -/
def daemonReloadCommand : List String := ["systemctl", "daemon-reload"]

/-- The command of `systemd_restart_service`. -/
def restartCommand (service : String) : List String := ["systemctl", "restart", service]

/-- The command of `systemd_set_sercices_enabled`. -/
def setServicesEnabledCommand (services : List String) (enabled : Bool) : List String :=
  ["systemctl", if enabled then "enable" else "disable"] ++ services

section Commands

variable (host : Host)

/-- `systemd_daemon_reload`. -/
def systemdDaemonReload (m : Machine Secret Pub Keys) : Except String Unit × Machine Secret Pub Keys :=
  m.exec host daemonReloadCommand "failed to reload systemd configs"

/-- `systemd_restart_service`. -/
def systemdRestartService (service : String) (m : Machine Secret Pub Keys) :
    Except String Unit × Machine Secret Pub Keys :=
  m.exec host (restartCommand service) ("failed to restart service " ++ service)

/-- `systemd_set_sercices_enabled`. -/
def systemdSetServicesEnabled (services : List String) (enabled : Bool)
    (m : Machine Secret Pub Keys) : Except String Unit × Machine Secret Pub Keys :=
  m.exec host (setServicesEnabledCommand services enabled) "failed to enable services"

/-- The loop of `start_services` that restarts each service. -/
def restartServices : List String → Machine Secret Pub Keys →
    Except String Unit × Machine Secret Pub Keys
  | [], m => (.ok (), m)
  | service :: services, m =>
    Machine.seq (systemdRestartService host service m) (restartServices services)

/-- `start_services` on the given services. -/
def startServices (p : Prompter Secret Keys) (services : List String)
    (m : Machine Secret Pub Keys) : Except String Unit × Machine Secret Pub Keys :=
  Machine.seq (systemdSetServicesEnabled host services
      (p.confirm "Enable autostart services at system startup?" true) m) fun m =>
    if p.confirm "Restart systemd services?" true then restartServices host services m
    else (.ok (), m)

/-- `dirs.create_systemd_validator_service(user)`. -/
def createSystemdValidatorService (dirs : Dirs) (user : String) (m : Machine Secret Pub Keys) :
    Except String Unit × Machine Secret Pub Keys :=
  match host.canonicalize dirs.nodeBinary, host.canonicalize dirs.nodeConfigsDir with
  | none, _ => (.error "failed to canonicalize node binary path", m)
  | some _, none => (.error "failed to canonicalize node configs path", m)
  | some node, some configsDir =>
    (.ok (), { m with validatorService := some (renderUnit (validatorServiceUnit user node configsDir)) })

/-- `dirs.create_systemd_validator_manager_service(user)`. -/
def createSystemdValidatorManagerService (dirs : Dirs) (user : String)
    (m : Machine Secret Pub Keys) : Except String Unit × Machine Secret Pub Keys :=
  match host.currentExe, host.canonicalize dirs.root with
  | .error e, _ => (.error e, m)
  | .ok _, none => (.error "failed to canonicalize root directory path", m)
  | .ok exe, some root =>
    (.ok (), { m with
      validatorManagerService := some (renderUnit (validatorManagerServiceUnit user exe root)) })

/-- `prepare_services`. -/
def prepareServices (p : Prompter Secret Keys) (dirs : Dirs) (m : Machine Secret Pub Keys) :
    Except String Unit × Machine Secret Pub Keys :=
  match serviceUser p host with
  | .error e => (.error e, m)
  | .ok user =>
    Machine.seq (createSystemdValidatorService host dirs user m)
      (createSystemdValidatorManagerService host dirs user)

/-- `CmdInitSystemd::run`, which is also how `CmdInit::run` ends when run as root. -/
def CmdInitSystemd.run (p : Prompter Secret Keys) (dirs : Dirs) (m : Machine Secret Pub Keys) :
    Except String Unit × Machine Secret Pub Keys :=
  Machine.seq (prepareServices host p dirs m) fun m =>
    Machine.seq (systemdDaemonReload host m)
      (startServices host p [dirs.validatorService, dirs.validatorManagerService])

end Commands

/-! ### What a run of the systemd part does -/

/-- The commands `CmdInitSystemd::run` runs when nothing fails: `daemon-reload`, then `enable` or
`disable` of the two services as the user answers, then a `restart` of each if the user wants. -/
def systemdCommands (p : Prompter Secret Keys) (dirs : Dirs) : List (List String) :=
  let services := [dirs.validatorService, dirs.validatorManagerService]
  daemonReloadCommand ::
    setServicesEnabledCommand services (p.confirm "Enable autostart services at system startup?" true) ::
    if p.confirm "Restart systemd services?" true then services.map restartCommand else []

/-- Both units are written for `user`, from the canonical paths. -/
def UnitsWritten (host : Host) (dirs : Dirs) (user : String) (m : Machine Secret Pub Keys) :
    Prop :=
  ∃ node configsDir exe root, host.canonicalize dirs.nodeBinary = some node ∧
    host.canonicalize dirs.nodeConfigsDir = some configsDir ∧ host.currentExe = .ok exe ∧
    host.canonicalize dirs.root = some root ∧
    m.validatorService = some (renderUnit (validatorServiceUnit user node configsDir)) ∧
    m.validatorManagerService = some (renderUnit (validatorManagerServiceUnit user exe root))

/-- A step from `m` ran a prefix of `commands`, all of them if it succeeded, and changed nothing
else. -/
def RanPrefix (commands : List (List String)) (m : Machine Secret Pub Keys)
    (r : Except String Unit × Machine Secret Pub Keys) : Prop :=
  ∃ done, r.2 = m.ran done ∧ done <+: commands ∧ (r.1 = .ok () → done = commands)

section Spec

variable {host : Host} {m : Machine Secret Pub Keys}

theorem ranPrefix_exec (command : List String) (context : String) :
    RanPrefix [command] m (m.exec host command context) :=
  ⟨[command], rfl, List.prefix_refl _, fun _ => rfl⟩

theorem ranPrefix_ok : RanPrefix [] m (.ok (), m) := ⟨[], by simp, List.prefix_refl _, fun _ => rfl⟩

theorem RanPrefix.seq {a b : List (List String)} {r : Except String Unit × Machine Secret Pub Keys}
    {next : Machine Secret Pub Keys → Except String Unit × Machine Secret Pub Keys}
    (h : RanPrefix a m r) (hnext : ∀ m', r = (.ok (), m') → RanPrefix b m' (next m')) :
    RanPrefix (a ++ b) m (Machine.seq r next) := by
  obtain ⟨done, hm, hp, hok⟩ := h
  rcases r with ⟨e | ⟨⟩, m'⟩
  · exact ⟨done, hm, hp.trans (List.prefix_append _ _), nofun⟩
  · obtain ⟨done', hm', hp', hok'⟩ := hnext m' rfl
    cases hok rfl
    subst hm
    exact ⟨a ++ done', by simp [Machine.seq, hm'], (List.prefix_append_right_inj a).2 hp',
      fun h => by rw [hok' h]⟩

theorem restartServices_spec (services : List String) :
    RanPrefix (services.map restartCommand) m (restartServices host services m) := by
  induction services generalizing m with
  | nil => exact ranPrefix_ok
  | cons service services ih =>
    exact (ranPrefix_exec _ _).seq fun _ _ => ih

theorem startServices_spec (p : Prompter Secret Keys) (services : List String) :
    RanPrefix (setServicesEnabledCommand services
        (p.confirm "Enable autostart services at system startup?" true) ::
      if p.confirm "Restart systemd services?" true then services.map restartCommand else [])
      m (startServices host p services m) := by
  unfold startServices
  by_cases hr : p.confirm "Restart systemd services?" true = true
  · simp only [hr, if_true]
    exact (ranPrefix_exec _ _).seq fun _ _ => restartServices_spec services
  · simp only [hr, if_false, Bool.false_eq_true]
    exact (ranPrefix_exec _ _).seq fun _ _ => ranPrefix_ok

theorem prepareServices_spec (p : Prompter Secret Keys) (dirs : Dirs) :
    (prepareServices host p dirs m).2.files = m.files ∧
      (prepareServices host p dirs m).2.commands = m.commands ∧
      ((prepareServices host p dirs m).1 = .ok () →
        ∃ user, serviceUser p host = .ok user ∧
          UnitsWritten host dirs user (prepareServices host p dirs m).2) := by
  unfold prepareServices
  split
  · exact ⟨rfl, rfl, nofun⟩
  · rename_i user hu
    unfold createSystemdValidatorService
    split
    · exact ⟨rfl, rfl, nofun⟩
    · exact ⟨rfl, rfl, nofun⟩
    · rename_i node configsDir hn hc
      simp only [Machine.seq, createSystemdValidatorManagerService]
      split
      · exact ⟨rfl, rfl, nofun⟩
      · exact ⟨rfl, rfl, nofun⟩
      · rename_i exe root he hr
        exact ⟨rfl, rfl, fun _ => ⟨user, hu, node, configsDir, exe, root, hn, hc, he, hr, rfl, rfl⟩⟩

/-- After `prepare_services`, the run reloads systemd and starts the services. -/
theorem ranPrefix_reload_start (p : Prompter Secret Keys) (dirs : Dirs) :
    RanPrefix (systemdCommands p dirs) m (Machine.seq (systemdDaemonReload host m)
      (startServices host p [dirs.validatorService, dirs.validatorManagerService])) :=
  (ranPrefix_exec _ _).seq fun _ _ => startServices_spec p _

/-- The systemd part leaves the files of the setup alone. -/
theorem CmdInitSystemd.run_files (p : Prompter Secret Keys) (dirs : Dirs) :
    (CmdInitSystemd.run host p dirs m).2.files = m.files := by
  obtain ⟨hf, -, -⟩ := @prepareServices_spec _ _ _ host m p dirs
  unfold CmdInitSystemd.run
  rcases h : prepareServices host p dirs m with ⟨e | ⟨⟩, m₁⟩ <;> rw [h] at hf
  · exact hf
  · obtain ⟨done, hm, -, -⟩ := @ranPrefix_reload_start _ _ _ host m₁ p dirs
    rw [Machine.seq, hm]
    exact hf

/-- **The systemd part of `init`.**  A run adds to the commands a prefix of `daemon-reload`, then
`enable` or `disable` of both services, then a `restart` of each if the user wants; all of them
when it succeeds.  It runs none before both units are written for the user `prepare_services`
picks. -/
theorem CmdInitSystemd.run_spec (p : Prompter Secret Keys) (dirs : Dirs) :
    ∃ done, (CmdInitSystemd.run host p dirs m).2.commands = m.commands ++ done ∧
      done <+: systemdCommands p dirs ∧
      ((CmdInitSystemd.run host p dirs m).1 = .ok () → done = systemdCommands p dirs) ∧
      (done ≠ [] → ∃ user, serviceUser p host = .ok user ∧
        UnitsWritten host dirs user (CmdInitSystemd.run host p dirs m).2) := by
  obtain ⟨-, hcmds, hunits⟩ := @prepareServices_spec _ _ _ host m p dirs
  unfold CmdInitSystemd.run
  rcases h : prepareServices host p dirs m with ⟨e | ⟨⟩, m₁⟩ <;> rw [h] at hcmds hunits
  · exact ⟨[], hcmds.symm ▸ (List.append_nil _).symm, List.nil_prefix, nofun, fun h => absurd rfl h⟩
  · obtain ⟨user, hu, hw⟩ := hunits rfl
    obtain ⟨done, hm, hp, hok⟩ := @ranPrefix_reload_start _ _ _ host m₁ p dirs
    refine ⟨done, by rw [Machine.seq, hm, Machine.ran, ← hcmds], hp, hok,
      fun _ => ⟨user, hu, ?_⟩⟩
    rw [Machine.seq, hm]
    exact hw

end Spec

end Nodekeeper.Cli
