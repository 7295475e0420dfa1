import Mathlib.Logic.Basic
import Mathlib.Tactic.SplitIfs

/-!
# `init.rs` — the control server and ADNL entries of the configs

`CmdInit::run` loads stEVER's app config and the node config, then `setup_control_server` and
`setup_adnl` reconcile their control and ADNL entries with the user, storing a config each time
they change it.  Here the configs hold only the fields `init` reads; keys are
abstract (`Crypto`), and the user's answers, the public address lookup and the key generators
are one input, `Prompter`.  `Configs` keeps each config in memory and as last stored.

* `setupControlServer_spec`: a `true` run leaves the configs stored and in agreement
  (`ControlAgree`: one port, stEVER pins the node's server key, the node admits stEVER's client
  key); a `false` run stores nothing.  It never touches the ADNL entries.
* `setupAdnl_spec`: the same for ADNL (`AdnlAgree`); it never touches the control entries.
* `setupConfigs_spec`: after both, the stored configs agree on both entries.
* `setupConfigs_of_agree`: on configs that already agree, both steps return `true` and change
  nothing, whatever the user would answer.
-/

namespace Nodekeeper.Cli

/-! ### The configs -/

/-- `SocketAddrV4`: the `u32` of an `Ipv4Addr`, and a port. -/
structure SocketAddrV4 where
  ip : UInt32
  port : UInt16
  deriving DecidableEq, Repr

/-- `Ipv4Addr::LOCALHOST`. -/
def localhost : UInt32 := 0x7F000001

/-- `Ipv4Addr::UNSPECIFIED`. -/
def unspecified : UInt32 := 0

/-- `DEFAULT_CONTROL_PORT`. -/
def defaultControlPort : UInt16 := 5031

/-- `DEFAULT_LOCAL_ADNL_PORT`. -/
def defaultLocalAdnlPort : UInt16 := 5032

/-- `DEFAULT_ADNL_PORT`. -/
def defaultAdnlPort : UInt16 := 30100

/-- `LISTEN_ADDR_ITEMS` of `setup_control_server`. -/
def listenAddrItems : List (String × UInt32) := [("localhost", localhost), ("any", unspecified)]

/-- `AppConfigControl`: how stEVER reaches the node's control server. -/
structure AppConfigControl (Secret Pub : Type) where
  serverAddress : SocketAddrV4
  serverPubkey : Pub
  clientSecret : Secret

/-- `NodeConfigControlServer`: `clients = none` admits any client. -/
structure NodeConfigControlServer (Secret Pub : Type) where
  address : SocketAddrV4
  serverKey : Secret
  clients : Option (List Pub)

/-- `AppConfigAdnl`: how stEVER reaches the node over ADNL. -/
structure AppConfigAdnl (Pub : Type) where
  clientPort : UInt16
  serverAddress : SocketAddrV4
  serverPubkey : Pub
  zerostateFileHash : List UInt8

/-- `NodeConfigAdnl`: the node's ADNL address and keys. -/
structure NodeConfigAdnl (Keys : Type) where
  ipAddress : SocketAddrV4
  keys : Keys

/-- What the two functions read of stEVER's `AppConfig`. -/
structure AppConfig (Secret Pub : Type) where
  control : Option (AppConfigControl Secret Pub)
  adnl : Option (AppConfigAdnl Pub)

/-- What `init` reads of `NodeConfig`: its control server and ADNL node, the ports
`get_suggested_control_port` and `get_suggested_adnl_port` read, and the two paths
`setup_node_config_paths` sets. -/
structure NodeConfig (Secret Pub Keys : Type) where
  controlServer : Option (NodeConfigControlServer Secret Pub)
  adnlNode : Option (NodeConfigAdnl Keys)
  suggestedControlPort : Option UInt16
  suggestedAdnlPort : Option UInt16
  /-- `set_global_config_path` -/
  globalConfigPath : Option String
  /-- `get_internal_db_path` and `set_internal_db_path` -/
  internalDbPath : Option String

/-- The two configs in memory, and as `store_app_config` and `store_node_config` last wrote
them. -/
structure Configs (Secret Pub Keys : Type) where
  app : AppConfig Secret Pub
  node : NodeConfig Secret Pub Keys
  storedApp : AppConfig Secret Pub
  storedNode : NodeConfig Secret Pub Keys

/-- The keys, abstractly. -/
structure Crypto (Secret Pub Keys : Type) where
  /-- `ed25519::PublicKey::from(&secret)` -/
  publicKey : Secret → Pub
  /-- `NodeConfigAdnl::overlay_pubkey`, `none` on error -/
  overlayPubkey : Keys → Option Pub

/-- Everything the two functions ask of the world. -/
structure Prompter (Secret Keys : Type) where
  /-- `confirm(theme, default, text)` -/
  confirm : String → Bool → Bool
  /-- `Select` with a prompt and `n` items: the index chosen -/
  select : String → Nat → Nat
  /-- a `Select` returns one of its items -/
  select_lt : ∀ text n, 0 < n → select text n < n
  /-- `Input` of a port, with the initial text if any -/
  inputPort : String → Option UInt16 → UInt16
  /-- `Input` of an `Ipv4Addr`, with the initial text if any -/
  inputIp : String → Option UInt32 → UInt32
  /-- `public_ip::addr_v4()` -/
  publicIp : Option UInt32
  /-- the `i`-th `SecretKey::generate(rng)` of the call -/
  secretKey : Nat → Secret
  /-- `NodeConfigAdnl::generate_keys()` -/
  adnlKeys : Keys

variable {Secret Pub Keys : Type}

namespace Configs

/-- `dirs.store_app_config(app_config)`. -/
@[simp] def storeApp (s : Configs Secret Pub Keys) : Configs Secret Pub Keys :=
  { s with storedApp := s.app }

/-- `dirs.store_node_config(node_config)`. -/
@[simp] def storeNode (s : Configs Secret Pub Keys) : Configs Secret Pub Keys :=
  { s with storedNode := s.node }

/-- `app_config.control = ..` in memory. -/
@[simp] def setControl (s : Configs Secret Pub Keys) (c : AppConfigControl Secret Pub) :
    Configs Secret Pub Keys :=
  { s with app := { s.app with control := some c } }

/-- `node_config.set_control_server(..)`. -/
@[simp] def setControlServer (s : Configs Secret Pub Keys)
    (c : NodeConfigControlServer Secret Pub) : Configs Secret Pub Keys :=
  { s with node := { s.node with controlServer := some c } }

/-- `app_config.adnl = ..` in memory. -/
@[simp] def setAdnl (s : Configs Secret Pub Keys) (c : AppConfigAdnl Pub) :
    Configs Secret Pub Keys :=
  { s with app := { s.app with adnl := some c } }

/-- `node_config.set_adnl_node(..)`. -/
@[simp] def setAdnlNode (s : Configs Secret Pub Keys) (c : NodeConfigAdnl Keys) :
    Configs Secret Pub Keys :=
  { s with node := { s.node with adnlNode := some c } }

/-- Memory and disk agree: so they are after loading, and after every successful step. -/
def Synced (s : Configs Secret Pub Keys) : Prop := s.storedApp = s.app ∧ s.storedNode = s.node

variable {s : Configs Secret Pub Keys}

theorem storeApp_eq_self (h : s.storedApp = s.app) : s.storeApp = s := by
  obtain ⟨_, _, _, _⟩ := s
  cases h
  rfl

theorem storeNode_eq_self (h : s.storedNode = s.node) : s.storeNode = s := by
  obtain ⟨_, _, _, _⟩ := s
  cases h
  rfl

theorem setControl_eq_self {c : AppConfigControl Secret Pub} (h : s.app.control = some c) :
    s.setControl c = s := by
  obtain ⟨⟨_, _⟩, _, _, _⟩ := s
  cases h
  rfl

theorem setControlServer_eq_self {c : NodeConfigControlServer Secret Pub}
    (h : s.node.controlServer = some c) : s.setControlServer c = s := by
  obtain ⟨_, ⟨_, _, _, _⟩, _, _⟩ := s
  cases h
  rfl

/-- A store skipped because nothing changed is a store of what is already stored. -/
theorem ite_storeApp {b : Bool} (h : b = false → s.storedApp = s.app) :
    (if b then s.storeApp else s) = s.storeApp := by
  cases b
  · exact (storeApp_eq_self (h rfl)).symm
  · rfl

theorem ite_storeNode {b : Bool} {c : NodeConfigControlServer Secret Pub}
    (h : b = false → s.node.controlServer = some c ∧ s.storedNode = s.node) :
    (if b then (s.setControlServer c).storeNode else s) = (s.setControlServer c).storeNode := by
  cases b
  · obtain ⟨h₁, h₂⟩ := h rfl
    rw [setControlServer_eq_self h₁, storeNode_eq_self h₂]
    rfl
  · rfl

end Configs

/-! ### `setup_control_server` -/

section Control

variable (cr : Crypto Secret Pub Keys) (p : Prompter Secret Keys)

/-- The node's clients after admitting `client`: `append` keeps the others, `replace` drops
them; the user is asked only about a non-empty list. -/
def addClient (clients : List Pub) (client : Pub) : List Pub :=
  let append := clients.isEmpty ||
    p.select "Node config has some clients specified. What to do?" 2 == 0
  (if append then clients else []) ++ [client]

/-- The port the user picks when the two differ: the node's, stEVER's, or a custom one. -/
def chosenPort (clientPort serverPort : UInt16) : UInt16 :=
  match p.select "stEVER config has different control port. What to do?" 3 with
  | 0 => serverPort
  | 1 => clientPort
  | _ => p.inputPort "Specify control port" none

/-- When both entries exist and their ports differ, both take the port the user picks; also
whether each entry changed. -/
def reconcilePort (client : AppConfigControl Secret Pub)
    (server : NodeConfigControlServer Secret Pub) :
    AppConfigControl Secret Pub × NodeConfigControlServer Secret Pub × Bool × Bool :=
  let serverPort := server.address.port
  let clientPort := client.serverAddress.port
  if clientPort ≠ serverPort then
    let port := chosenPort p clientPort serverPort
    ({ client with serverAddress := { client.serverAddress with port := port } },
      { server with address := { server.address with port := port } },
      port != clientPort, port != serverPort)
  else (client, server, false, false)

/-- The node admits `client`'s key, unless it admits any client or lists the key already; also
whether the node's entry changed. -/
def admitClient [DecidableEq Pub] (client : AppConfigControl Secret Pub)
    (server : NodeConfigControlServer Secret Pub) : NodeConfigControlServer Secret Pub × Bool :=
  match server.clients with
  | some clients =>
    let clientPubkey := cr.publicKey client.clientSecret
    if clients.contains clientPubkey then (server, false)
    else ({ server with clients := some (addClient p clients clientPubkey) }, true)
  | none => (server, false)

/-- The arm `(Some(existing_client), Some(existing_server))`. -/
def reconcileControl [DecidableEq Pub] (s : Configs Secret Pub Keys)
    (client : AppConfigControl Secret Pub) (server : NodeConfigControlServer Secret Pub) :
    Bool × Configs Secret Pub Keys :=
  match reconcilePort p client server with
  | (client, server, clientChanged, serverChanged) =>
    let serverPubkey := cr.publicKey server.serverKey
    if serverPubkey ≠ client.serverPubkey ∧
        p.confirm "Server pubkey mismatch. Update?" true = false then
      (false, s.setControl client)
    else
      let client' := { client with serverPubkey := serverPubkey }
      let clientChanged := clientChanged || decide (serverPubkey ≠ client.serverPubkey)
      match admitClient cr p client' server with
      | (server, admitted) =>
        let s := s.setControl client'
        let s := if clientChanged then s.storeApp else s
        (true, if serverChanged || admitted then (s.setControlServer server).storeNode else s)

/-- The node's clients after a new client key: the user may let any client in when the node
lists none; also whether the node's entry changed. -/
def clientsWithNew (clients : Option (List Pub)) (clientPubkey : Pub) : Option (List Pub) × Bool :=
  match clients with
  | none =>
    if p.confirm "Allow any clients?" false = false then (some [clientPubkey], true)
    else (none, false)
  | some clients => (some (addClient p clients clientPubkey), true)

/-- The arm `(None, Some(existing_server))`: a new client key, admitted by the node unless the
user lets any client in. -/
def createControlClient (s : Configs Secret Pub Keys)
    (server : NodeConfigControlServer Secret Pub) : Bool × Configs Secret Pub Keys :=
  if p.confirm "stEVER config doesn't have control server entry. Create?" true = false then
    (false, s)
  else
    let clientKey := p.secretKey 0
    let clientPubkey := cr.publicKey clientKey
    match clientsWithNew p server.clients clientPubkey with
    | (clients, nodeConfigChanged) =>
      let server := { server with clients := clients }
      let addr : SocketAddrV4 := ⟨localhost, server.address.port⟩
      let s := (s.setControl ⟨addr, cr.publicKey server.serverKey, clientKey⟩).storeApp
      (true, if nodeConfigChanged then (s.setControlServer server).storeNode else s)

/-- The arm `(existing_client, None)`: a new server and client key pair on an address the user
picks. -/
def createControlServer (s : Configs Secret Pub Keys)
    (existingClient : Option (AppConfigControl Secret Pub)) (controlPort : UInt16) :
    Bool × Configs Secret Pub Keys :=
  if p.confirm "Node config doesn't have control server entry. Create?" true = false then
    (false, s)
  else if existingClient.isSome ∧
      p.confirm "Overwrite stEVER control server config?" false = false then
    (false, s)
  else
    let listenAddr := (listenAddrItems.get
      ⟨p.select "Control server listen address" 2, p.select_lt _ 2 (by decide)⟩).2
    let controlPort := p.inputPort "Specify control port" (some controlPort)
    let addr : SocketAddrV4 := ⟨listenAddr, controlPort⟩
    let serverKey := p.secretKey 0
    let clientKey := p.secretKey 1
    let s := s.setControl ⟨addr, cr.publicKey serverKey, clientKey⟩
    let s := s.setControlServer ⟨addr, serverKey, some [cr.publicKey clientKey]⟩
    (true, s.storeApp.storeNode)

/-- `setup_control_server`. -/
def setupControlServer [DecidableEq Pub] (s : Configs Secret Pub Keys) :
    Bool × Configs Secret Pub Keys :=
  let controlPort := s.node.suggestedControlPort.getD defaultControlPort
  match s.app.control, s.node.controlServer with
  | some client, some server => reconcileControl cr p s client server
  | none, some server => createControlClient cr p s server
  | existingClient, none => createControlServer cr p s existingClient controlPort

/-- stEVER's control entry and the node's control server agree: one port, stEVER pins the
server's key, and the server admits stEVER's client key. -/
def ControlAgree (app : AppConfig Secret Pub) (node : NodeConfig Secret Pub Keys) : Prop :=
  ∃ client server, app.control = some client ∧ node.controlServer = some server ∧
    client.serverAddress.port = server.address.port ∧
    client.serverPubkey = cr.publicKey server.serverKey ∧
    ∀ clients, server.clients = some clients → cr.publicKey client.clientSecret ∈ clients

theorem ControlAgree.congr {app app' : AppConfig Secret Pub}
    {node node' : NodeConfig Secret Pub Keys} (h : ControlAgree cr app node)
    (ha : app'.control = app.control) (hn : node'.controlServer = node.controlServer) :
    ControlAgree cr app' node' := by
  rw [ControlAgree, ha, hn]
  exact h

theorem mem_addClient (clients : List Pub) (client : Pub) : client ∈ addClient p clients client :=
  List.mem_append_right _ (List.mem_singleton_self client)

/-- Both entries take one port; nothing else changes, and an entry flagged unchanged is the
same. -/
theorem reconcilePort_spec {client client' : AppConfigControl Secret Pub}
    {server server' : NodeConfigControlServer Secret Pub} {cc sc : Bool}
    (h : reconcilePort p client server = (client', server', cc, sc)) :
    client'.serverAddress.port = server'.address.port ∧
    client'.clientSecret = client.clientSecret ∧ server'.serverKey = server.serverKey ∧
    (cc = false → client' = client) ∧ (sc = false → server' = server) := by
  dsimp only [reconcilePort] at h
  split_ifs at h with hne
  · generalize chosenPort p client.serverAddress.port server.address.port = port at h
    simp only [Prod.mk.injEq] at h
    obtain ⟨rfl, rfl, rfl, rfl⟩ := h
    refine ⟨rfl, rfl, rfl, fun hc => ?_, fun hc => ?_⟩
    · rw [bne_eq_false_iff_eq] at hc
      subst hc
      rfl
    · rw [bne_eq_false_iff_eq] at hc
      subst hc
      rfl
  · simp only [Prod.mk.injEq] at h
    obtain ⟨rfl, rfl, rfl, rfl⟩ := h
    exact ⟨not_not.1 hne, rfl, rfl, fun _ => rfl, fun _ => rfl⟩

theorem clientsWithNew_spec {clients clients' : Option (List Pub)} {clientPubkey : Pub}
    {changed : Bool} (h : clientsWithNew p clients clientPubkey = (clients', changed)) :
    (∀ cs, clients' = some cs → clientPubkey ∈ cs) ∧ (changed = false → clients' = clients) := by
  unfold clientsWithNew at h
  split at h
  · split_ifs at h <;> cases h
    · exact ⟨fun cs hcs => Option.some.inj hcs ▸ List.mem_singleton_self _, nofun⟩
    · exact ⟨nofun, fun _ => rfl⟩
  · cases h
    exact ⟨fun cs hcs => Option.some.inj hcs ▸ mem_addClient p _ _, nofun⟩

section Spec

variable {s s' : Configs Secret Pub Keys} {ok : Bool}

theorem createControlClient_spec {server : NodeConfigControlServer Secret Pub} (hs : s.Synced)
    (hsv : s.node.controlServer = some server)
    (h : createControlClient cr p s server = (ok, s')) :
    (ok = true → s'.Synced ∧ ControlAgree cr s'.app s'.node) ∧
    (ok = false → s'.storedApp = s.storedApp ∧ s'.storedNode = s.storedNode) ∧
    s'.app.adnl = s.app.adnl ∧ s'.node.adnlNode = s.node.adnlNode := by
  unfold createControlClient at h
  split_ifs at h
  · cases h
    exact ⟨nofun, fun _ => ⟨rfl, rfl⟩, rfl, rfl⟩
  · rcases hn : clientsWithNew p server.clients (cr.publicKey (p.secretKey 0)) with
      ⟨clients, changed⟩
    obtain ⟨hmem, hch⟩ := clientsWithNew_spec p hn
    simp only [hn] at h
    cases h
    rw [Configs.ite_storeNode fun hb => ?_]
    · exact ⟨fun _ => ⟨⟨rfl, rfl⟩, _, _, rfl, rfl, rfl, rfl, hmem⟩, nofun, rfl, rfl⟩
    · -- the node's entry is unchanged, so already stored
      exact ⟨by rw [hch hb]; exact hsv, hs.2⟩

theorem createControlServer_spec {existingClient : Option (AppConfigControl Secret Pub)}
    {controlPort : UInt16} (h : createControlServer cr p s existingClient controlPort = (ok, s')) :
    (ok = true → s'.Synced ∧ ControlAgree cr s'.app s'.node) ∧
    (ok = false → s'.storedApp = s.storedApp ∧ s'.storedNode = s.storedNode) ∧
    s'.app.adnl = s.app.adnl ∧ s'.node.adnlNode = s.node.adnlNode := by
  unfold createControlServer at h
  split_ifs at h <;> cases h
  · exact ⟨nofun, fun _ => ⟨rfl, rfl⟩, rfl, rfl⟩
  · exact ⟨nofun, fun _ => ⟨rfl, rfl⟩, rfl, rfl⟩
  · exact ⟨fun _ => ⟨⟨rfl, rfl⟩, _, _, rfl, rfl, rfl, rfl,
      fun _ hcs => Option.some.inj hcs ▸ List.mem_singleton_self _⟩, nofun, rfl, rfl⟩

variable [DecidableEq Pub]

/-- The node ends up admitting the client; an entry flagged unchanged is the same. -/
theorem admitClient_spec {client : AppConfigControl Secret Pub}
    {server server' : NodeConfigControlServer Secret Pub} {admitted : Bool}
    (h : admitClient cr p client server = (server', admitted)) :
    server'.address = server.address ∧ server'.serverKey = server.serverKey ∧
    (∀ clients, server'.clients = some clients → cr.publicKey client.clientSecret ∈ clients) ∧
    (admitted = false → server' = server) := by
  unfold admitClient at h
  split at h
  · rename_i clients hcl
    dsimp only at h
    split_ifs at h with hc <;> cases h
    · refine ⟨rfl, rfl, fun cs hcs => ?_, fun _ => rfl⟩
      rw [hcl, Option.some.injEq] at hcs
      exact hcs ▸ List.mem_of_elem_eq_true hc
    · exact ⟨rfl, rfl, fun cs hcs => Option.some.inj hcs ▸ mem_addClient p _ _, nofun⟩
  · rename_i hcl
    cases h
    exact ⟨rfl, rfl, fun cs hcs => (by rw [hcl] at hcs; cases hcs), fun _ => rfl⟩

theorem reconcileControl_spec {client : AppConfigControl Secret Pub}
    {server : NodeConfigControlServer Secret Pub} (hs : s.Synced)
    (hc : s.app.control = some client) (hsv : s.node.controlServer = some server)
    (h : reconcileControl cr p s client server = (ok, s')) :
    (ok = true → s'.Synced ∧ ControlAgree cr s'.app s'.node) ∧
    (ok = false → s'.storedApp = s.storedApp ∧ s'.storedNode = s.storedNode) ∧
    s'.app.adnl = s.app.adnl ∧ s'.node.adnlNode = s.node.adnlNode := by
  rcases hr : reconcilePort p client server with ⟨client₁, server₁, cc, sc⟩
  obtain ⟨hport, -, -, hcc, hsc⟩ := reconcilePort_spec p hr
  rcases ha : admitClient cr p { client₁ with serverPubkey := cr.publicKey server₁.serverKey }
    server₁ with ⟨server₂, admitted⟩
  obtain ⟨haddr, hkey, hadm, hadm'⟩ := admitClient_spec cr p ha
  simp only [reconcileControl, hr, ha] at h
  split at h
  · -- the user keeps the old server key: nothing is stored
    cases h
    exact ⟨nofun, fun _ => ⟨rfl, rfl⟩, rfl, rfl⟩
  · cases h
    rw [Configs.ite_storeApp fun hb => ?_, Configs.ite_storeNode fun hb => ?_]
    · exact ⟨fun _ => ⟨⟨rfl, rfl⟩, _, server₂, rfl, rfl, haddr ▸ hport, hkey ▸ rfl, hadm⟩,
        nofun, rfl, rfl⟩
    · -- the node's entry is unchanged, so already stored
      rw [Bool.or_eq_false_iff] at hb
      rw [hadm' hb.2, hsc hb.1]
      exact ⟨hsv, hs.2⟩
    · -- stEVER's entry is unchanged, so already stored
      rw [Bool.or_eq_false_iff, decide_eq_false_iff_not, not_not] at hb
      obtain rfl := hcc hb.1
      rw [hb.2]
      exact hs.1.trans (congrArg Configs.app (Configs.setControl_eq_self hc).symm)

/-- **`setup_control_server`.**  From configs as loaded, a `true` run leaves them stored and in
agreement, a `false` run stores nothing, and the ADNL entries are left alone. -/
theorem setupControlServer_spec (hs : s.Synced) (h : setupControlServer cr p s = (ok, s')) :
    (ok = true → s'.Synced ∧ ControlAgree cr s'.app s'.node) ∧
    (ok = false → s'.storedApp = s.storedApp ∧ s'.storedNode = s.storedNode) ∧
    s'.app.adnl = s.app.adnl ∧ s'.node.adnlNode = s.node.adnlNode := by
  unfold setupControlServer at h
  split at h
  · exact reconcileControl_spec cr p hs ‹_› ‹_› h
  · exact createControlClient_spec cr p hs ‹_› h
  · exact createControlServer_spec cr p h

/-- On agreeing entries `setup_control_server` asks nothing and changes nothing. -/
theorem setupControlServer_of_agree (ha : ControlAgree cr s.app s.node) :
    setupControlServer cr p s = (true, s) := by
  obtain ⟨client, server, hc, hsv, hport, hpub, hcl⟩ := ha
  have hr : reconcilePort p client server = (client, server, false, false) := by
    rw [reconcilePort, if_neg (not_not.2 hport)]
  have hclient : { client with serverPubkey := cr.publicKey server.serverKey } = client := by
    rw [← hpub]
  have ha : admitClient cr p client server = (server, false) := by
    unfold admitClient
    split
    · rw [if_pos (List.elem_eq_true_of_mem (hcl _ ‹_›))]
    · rfl
  simp only [setupControlServer, hc, hsv, reconcileControl, hr, hclient, ha, ← hpub, ne_eq,
    not_true_eq_false, false_and, if_false, Bool.or_false, decide_False, Bool.false_eq_true,
    Configs.setControl_eq_self hc]

end Spec

end Control

/-! ### `setup_adnl` -/

section Adnl

variable [DecidableEq Pub] (cr : Crypto Secret Pub Keys) (p : Prompter Secret Keys)

/-- `setup_adnl`, with `global_config.zero_state.file_hash`; `none` is the error of
`overlay_pubkey`. -/
def setupAdnl (zerostateFileHash : List UInt8) (s : Configs Secret Pub Keys) :
    Option (Bool × Configs Secret Pub Keys) :=
  let adnlPort := s.node.suggestedAdnlPort.getD defaultAdnlPort
  match s.app.adnl, s.node.adnlNode with
  | some adnlClient, some adnlNode => (cr.overlayPubkey adnlNode.keys).map fun serverPubkey =>
    if adnlClient.serverAddress ≠ adnlNode.ipAddress ∨ adnlClient.serverPubkey ≠ serverPubkey ∨
        adnlClient.zerostateFileHash ≠ zerostateFileHash then
      if p.confirm "ADNL node configuration mismatch. Update?" false = false then (false, s)
      else
        let adnlClient := { adnlClient with
          serverAddress := adnlNode.ipAddress
          serverPubkey := serverPubkey
          zerostateFileHash := zerostateFileHash }
        (true, (s.setAdnl adnlClient).storeApp)
    else (true, s)
  | none, some adnlNode => (cr.overlayPubkey adnlNode.keys).map fun serverPubkey =>
    (true, (s.setAdnl ⟨defaultLocalAdnlPort, adnlNode.ipAddress, serverPubkey,
      zerostateFileHash⟩).storeApp)
  | _, none =>
    let addr := p.inputIp "Enter public ip" p.publicIp
    let adnlPort := p.inputPort "Specify server ADNL port" (some adnlPort)
    let adnlNode : NodeConfigAdnl Keys := ⟨⟨addr, adnlPort⟩, p.adnlKeys⟩
    let s := s.setAdnlNode adnlNode
    (cr.overlayPubkey adnlNode.keys).map fun serverPubkey =>
      (true, ((s.setAdnl ⟨defaultLocalAdnlPort, adnlNode.ipAddress, serverPubkey,
        zerostateFileHash⟩).storeApp).storeNode)

/-- stEVER's ADNL entry targets the node's ADNL address and overlay key, on the network of the
global config's zerostate. -/
def AdnlAgree (zerostateFileHash : List UInt8) (app : AppConfig Secret Pub)
    (node : NodeConfig Secret Pub Keys) : Prop :=
  ∃ client adnlNode, app.adnl = some client ∧ node.adnlNode = some adnlNode ∧
    client.serverAddress = adnlNode.ipAddress ∧
    cr.overlayPubkey adnlNode.keys = some client.serverPubkey ∧
    client.zerostateFileHash = zerostateFileHash

omit [DecidableEq Pub] in
theorem AdnlAgree.congr {zerostateFileHash : List UInt8} {app app' : AppConfig Secret Pub}
    {node node' : NodeConfig Secret Pub Keys} (h : AdnlAgree cr zerostateFileHash app node)
    (ha : app'.adnl = app.adnl) (hn : node'.adnlNode = node.adnlNode) :
    AdnlAgree cr zerostateFileHash app' node' := by
  rw [AdnlAgree, ha, hn]
  exact h

section Spec

variable {s s' : Configs Secret Pub Keys} {ok : Bool}

/-- **`setup_adnl`.**  From configs as loaded, a `true` run leaves them stored and in agreement,
a `false` run stores nothing, and the control entries are left alone. -/
theorem setupAdnl_spec {zerostateFileHash : List UInt8} (hs : s.Synced)
    (h : setupAdnl cr p zerostateFileHash s = some (ok, s')) :
    (ok = true → s'.Synced ∧ AdnlAgree cr zerostateFileHash s'.app s'.node) ∧
    (ok = false → s'.storedApp = s.storedApp ∧ s'.storedNode = s.storedNode) ∧
    s'.app.control = s.app.control ∧ s'.node.controlServer = s.node.controlServer := by
  unfold setupAdnl at h
  split at h
  · rename_i client adnlNode hc hn
    obtain ⟨pk, hpk, h⟩ := Option.map_eq_some'.1 h
    split_ifs at h with hne
    · -- the user keeps the old entry: nothing is stored
      cases h
      exact ⟨nofun, fun _ => ⟨rfl, rfl⟩, rfl, rfl⟩
    · cases h
      exact ⟨fun _ => ⟨⟨rfl, hs.2⟩, _, adnlNode, rfl, hn, rfl, hpk, rfl⟩, nofun, rfl, rfl⟩
    · -- the entries agree already
      cases h
      simp only [ne_eq, not_or, not_not] at hne
      obtain ⟨haddr, rfl, hz⟩ := hne
      exact ⟨fun _ => ⟨hs, client, adnlNode, hc, hn, haddr, hpk, hz⟩, nofun, rfl, rfl⟩
  · rename_i adnlNode _ hn
    obtain ⟨pk, hpk, h⟩ := Option.map_eq_some'.1 h
    cases h
    exact ⟨fun _ => ⟨⟨rfl, hs.2⟩, _, adnlNode, rfl, hn, rfl, hpk, rfl⟩, nofun, rfl, rfl⟩
  · obtain ⟨pk, hpk, h⟩ := Option.map_eq_some'.1 h
    cases h
    exact ⟨fun _ => ⟨⟨rfl, rfl⟩, _, _, rfl, rfl, rfl, hpk, rfl⟩, nofun, rfl, rfl⟩

/-- On agreeing entries `setup_adnl` asks nothing and changes nothing. -/
theorem setupAdnl_of_agree {zerostateFileHash : List UInt8}
    (ha : AdnlAgree cr zerostateFileHash s.app s.node) :
    setupAdnl cr p zerostateFileHash s = some (true, s) := by
  obtain ⟨client, adnlNode, hc, hn, haddr, hpk, hz⟩ := ha
  simp only [setupAdnl, hc, hn, hpk, Option.map_some', haddr, hz, ne_eq, not_true_eq_false,
    or_self, if_false]

end Spec

end Adnl

/-! ### `CmdInit::run`, from `setup_control_server` to `setup_adnl` -/

/-- `CmdInit::run` from `setup_control_server` to `setup_adnl`: stop at the first `false`.
`none` is the error of `setup_adnl`, which it meets before storing anything. -/
def setupConfigs [DecidableEq Pub] (cr : Crypto Secret Pub Keys) (p : Prompter Secret Keys)
    (zerostateFileHash : List UInt8) (s : Configs Secret Pub Keys) :
    Option (Bool × Configs Secret Pub Keys) :=
  match setupControlServer cr p s with
  | (true, s) => setupAdnl cr p zerostateFileHash s
  | (false, s) => some (false, s)

section Spec

variable [DecidableEq Pub] (cr : Crypto Secret Pub Keys) (p : Prompter Secret Keys)
  (zerostateFileHash : List UInt8)

/-- Both steps returning `true` on configs as loaded leave memory and disk in agreement, and the
configs agreeing on the control server and on ADNL. -/
theorem agree_of_setup {s s' : Configs Secret Pub Keys} (hs : s.Synced)
    (h : setupConfigs cr p zerostateFileHash s = some (true, s')) :
    s'.Synced ∧ ControlAgree cr s'.app s'.node ∧ AdnlAgree cr zerostateFileHash s'.app s'.node := by
  rcases hc : setupControlServer cr p s with ⟨_ | _, s₁⟩ <;> rw [setupConfigs, hc] at h
  · cases h
  obtain ⟨hs₁, hagree₁⟩ := (setupControlServer_spec cr p hs hc).1 rfl
  obtain ⟨ha, -, hctl, hsrv⟩ := setupAdnl_spec cr p hs₁ h
  obtain ⟨hs₂, hagree₂⟩ := ha rfl
  exact ⟨hs₂, hagree₁.congr cr hctl hsrv, hagree₂⟩

/-- **The configs after `init`.**  From configs as loaded, when both steps return `true`, memory
and disk agree, and the stored configs agree on the control server and on ADNL. -/
theorem setupConfigs_spec {s s' : Configs Secret Pub Keys} (hs : s.Synced)
    (h : setupConfigs cr p zerostateFileHash s = some (true, s')) :
    s'.Synced ∧ ControlAgree cr s'.storedApp s'.storedNode ∧
      AdnlAgree cr zerostateFileHash s'.storedApp s'.storedNode := by
  obtain ⟨hs', hagree⟩ := agree_of_setup cr p zerostateFileHash hs h
  rw [hs'.1, hs'.2]
  exact ⟨hs', hagree⟩

/-- Keys as numbers: a public key is its secret plus 100, the overlay key the keys plus 200. -/
def demoCrypto : Crypto Nat Nat Nat := ⟨fun k => k + 100, fun k => some (k + 200)⟩

/-- A user who accepts every default and confirms every question. -/
def demoPrompter : Prompter Nat Nat where
  confirm _ _ := true
  select _ _ := 0
  select_lt _ _ h := h
  inputPort _ port := port.getD defaultControlPort
  inputIp _ ip := ip.getD localhost
  publicIp := none
  secretKey i := i + 1
  adnlKeys := 7

/-- Fresh configs: no control or ADNL entry anywhere. -/
def demoFresh : Configs Nat Nat Nat :=
  let app : AppConfig Nat Nat := ⟨none, none⟩
  let node : NodeConfig Nat Nat Nat := ⟨none, none, none, none, none, none⟩
  ⟨app, node, app, node⟩

/-- What `init` stores from `demoFresh` for `demoPrompter`. -/
def demoConfigured : Configs Nat Nat Nat :=
  let app : AppConfig Nat Nat :=
    ⟨some ⟨⟨localhost, 5031⟩, 101, 2⟩, some ⟨5032, ⟨localhost, 30100⟩, 207, []⟩⟩
  let node : NodeConfig Nat Nat Nat :=
    ⟨some ⟨⟨localhost, 5031⟩, 1, some [102]⟩, some ⟨⟨localhost, 30100⟩, 7⟩, none, none, none,
      none⟩
  ⟨app, node, app, node⟩

theorem demo_setupConfigs :
    demoFresh.Synced ∧
      setupConfigs demoCrypto demoPrompter [] demoFresh = some (true, demoConfigured) ∧
      demoConfigured.Synced ∧
      ControlAgree demoCrypto demoConfigured.storedApp demoConfigured.storedNode ∧
      AdnlAgree demoCrypto [] demoConfigured.storedApp demoConfigured.storedNode :=
  have hs : demoFresh.Synced := ⟨rfl, rfl⟩
  have h : setupConfigs demoCrypto demoPrompter [] demoFresh = some (true, demoConfigured) := rfl
  ⟨hs, h, setupConfigs_spec demoCrypto demoPrompter [] hs h⟩

/-- **Running `init` again.**  On configs whose entries agree, both steps return `true` and
change nothing, whatever the user would answer. -/
theorem setupConfigs_of_agree {s : Configs Secret Pub Keys} (hc : ControlAgree cr s.app s.node)
    (ha : AdnlAgree cr zerostateFileHash s.app s.node) :
    setupConfigs cr p zerostateFileHash s = some (true, s) := by
  rw [setupConfigs, setupControlServer_of_agree cr p hc]
  exact setupAdnl_of_agree cr p ha

theorem demo_setupConfigs_of_agree :
    ControlAgree demoCrypto demoConfigured.app demoConfigured.node ∧
      AdnlAgree demoCrypto [] demoConfigured.app demoConfigured.node ∧
      setupConfigs demoCrypto demoPrompter [] demoConfigured = some (true, demoConfigured) :=
  have hc : ControlAgree demoCrypto demoConfigured.app demoConfigured.node :=
    ⟨_, _, rfl, rfl, rfl, rfl, fun _ hcs => Option.some.inj hcs ▸ List.mem_singleton_self _⟩
  have ha : AdnlAgree demoCrypto [] demoConfigured.app demoConfigured.node :=
    ⟨_, _, rfl, rfl, rfl, rfl, rfl⟩
  ⟨hc, ha, setupConfigs_of_agree demoCrypto demoPrompter [] hc ha⟩

end Spec

end Nodekeeper.Cli
