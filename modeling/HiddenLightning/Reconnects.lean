import HiddenLightning.PeerInfo

/-! # Reconnecting to peers

`connectpeer` and `openchannel` connect to their peer with `connect_peer_if_necessary` (`cli.rs`).
If the peer is not connected, it is dialled, and whether or not that succeeds a task is spawned
that looks every ten seconds whether the peer is connected and dials it again if not.  The task
never ends, and nobody keeps account of the tasks there are.

The command line waits for the call, so there is one call at a time; peers come and go meanwhile,
and the tasks go on.  `due_step` says what an event does to the keys of the tasks and of the call:
it leaves them, or it is a command for a peer that is not connected and adds that peer.  So there
is one task for every such command, and at most one for each peer if no such command is for a peer
that has a task (`reconnect_tasks`).
-/
namespace HiddenLightning
namespace Reconnect
open Numerals Words

variable {E : Secp256k1} {A : Type}

/-! ## Dialling -/

/-- Where a call of `do_connect_peer` is: in `connect_outbound`, or in the loop that waits for the
handshake. -/
inductive Dial where
  | connecting
  | handshaking
deriving DecidableEq

/-- What a call of `do_connect_peer` finds when it goes on. -/
inductive DialEvent where
  /-- `connect_outbound` returns, with a connection or without. -/
  | outbound (connection : Bool)
  /-- The connection was closed. -/
  | closed
  /-- The connection is there; the peers are looked through. -/
  | pending
deriving DecidableEq

/-- `do_connect_peer`, from one point to the next: it goes on, or it returns. -/
def doConnectPeer (peers : List (PublicKey E)) (pubkey : PublicKey E) :
    Dial → DialEvent → Dial ⊕ Except Unit Unit
  | .connecting, .outbound true => .inl .handshaking
  | .connecting, .outbound false => .inr (.error ())
  | .connecting, _ => .inl .connecting
  | .handshaking, .closed => .inr (.error ())
  | .handshaking, .pending => if pubkey ∈ peers then .inr (.ok ()) else .inl .handshaking
  | .handshaking, .outbound _ => .inl .handshaking

/-! ## Commands -/

/-- The peer a command connects to, if what it was given can be read. -/
def peerOf (env : CliEnv E A) (peerInfo : Text) : Option (PublicKey E × A) :=
  match parsePeerInfo env peerInfo with
  | some (.ok peer) => some peer
  | _ => none

/-- The call of `connect_peer_if_necessary` a command makes. -/
def connectTarget (env : CliEnv E A) : Command → List Text → Option (PublicKey E × A)
  | .connectpeer, peerInfo :: _ => peerOf env peerInfo
  | .openchannel, peerInfo :: channelValueSat :: _ =>
    -- the amount is checked first
    (parseUnsigned maxU64 channelValueSat).bind fun _ => peerOf env peerInfo
  | _, _ => none

/-- That is the only call the two commands make. -/
theorem run_congr {env : CliEnv E A} {name : Command}
    (hname : name = .connectpeer ∨ name = .openchannel) {words : List Text}
    {f g : PublicKey E → A → Bool}
    (h : ∀ peer ∈ connectTarget env name words, f peer.1 peer.2 = g peer.1 peer.2) :
    name.run { env with connectPeerIfNecessary := f } words =
      name.run { env with connectPeerIfNecessary := g } words := by
  have hparse : ∀ (f : PublicKey E → A → Bool) (info : Text),
      parsePeerInfo { env with connectPeerIfNecessary := f } info = parsePeerInfo env info :=
    fun _ _ => rfl
  rcases hname with rfl | rfl
  · cases words with
    | nil => rfl
    | cons info words =>
      simp only [Command.run, connectpeer, hparse]
      simp only [connectTarget, peerOf] at h
      generalize parsePeerInfo env info = parsed at h ⊢
      rcases parsed with _ | _ | peer
      · rfl
      · rfl
      · simp only [h peer rfl]
  · cases words with
    | nil => rfl
    | cons info words =>
      cases words with
      | nil => rfl
      | cons amount words =>
        simp only [Command.run, openchannel, hparse]
        simp only [connectTarget, peerOf] at h
        generalize parsePeerInfo env info = parsed at h ⊢
        generalize parseUnsigned maxU64 amount = amount at h ⊢
        rcases parsed with _ | _ | peer
        · rfl
        · rfl
        · cases amount with
          | none => rfl
          | some amount => simp only [h peer rfl]

/-! ## The tasks -/

/-- A call of `connect_peer_if_necessary` that found its peer not connected. -/
structure Call (E : Secp256k1) (A : Type) where
  pubkey : PublicKey E
  addr : A
  dial : Dial

/-- A task that was spawned: it waits for the next tick, or it dials. -/
structure Task (E : Secp256k1) (A : Type) where
  pubkey : PublicKey E
  addr : A
  dial : Option Dial

/-- The connected peers (`get_peer_node_ids`), the call the command line is in, and the tasks. -/
structure State (E : Secp256k1) (A : Type) where
  peers : List (PublicKey E)
  calling : Option (Call E A)
  tasks : List (Task E A)

/-- What happens: the next command is read, its call goes on, a task's interval ticks, a task's
call goes on, a peer is connected or disconnected. -/
inductive Event (E : Secp256k1) (A : Type) where
  | command (env : CliEnv E A) (name : Command) (words : List Text)
  | dialled (event : DialEvent)
  | tick (i : Nat)
  | redialled (i : Nat) (event : DialEvent)
  | connected (pubkey : PublicKey E)
  | disconnected (pubkey : PublicKey E)

/-- A tick of the interval of a task that waits for it. -/
def Task.tick (peers : List (PublicKey E)) (task : Task E A) : Task E A :=
  match task.dial with
  | none => if task.pubkey ∈ peers then task else { task with dial := some .connecting }
  | some _ => task

/-- The call of a task goes on; when it returns, the task waits for the next tick. -/
def Task.redial (peers : List (PublicKey E)) (event : DialEvent) (task : Task E A) : Task E A :=
  match task.dial with
  | none => task
  | some dial =>
    match doConnectPeer peers task.pubkey dial event with
    | .inl dial => { task with dial := some dial }
    | .inr _ => { task with dial := none }

/-- `connect_peer_if_necessary`, up to its call of `do_connect_peer`. -/
def State.connectPeerIfNecessary (s : State E A) (pubkey : PublicKey E) (addr : A) : State E A :=
  if pubkey ∈ s.peers then s else { s with calling := some ⟨pubkey, addr, .connecting⟩ }

/-- The rest of it: the call goes on, and when it has returned, with either result, the task is
spawned. -/
def State.dialled (s : State E A) (event : DialEvent) : State E A :=
  match s.calling with
  | none => s
  | some call =>
    match doConnectPeer s.peers call.pubkey call.dial event with
    | .inl dial => { s with calling := some { call with dial } }
    | .inr _ => { s with calling := none, tasks := s.tasks ++ [⟨call.pubkey, call.addr, none⟩] }

/-- An event.  The next line is not read before the command has returned. -/
def step (s : State E A) : Event E A → State E A
  | .command env name words =>
    match s.calling, connectTarget env name words with
    | none, some (pubkey, addr) => s.connectPeerIfNecessary pubkey addr
    | _, _ => s
  | .dialled event => s.dialled event
  | .tick i => { s with tasks := s.tasks.modify i (Task.tick s.peers) }
  | .redialled i event => { s with tasks := s.tasks.modify i (Task.redial s.peers event) }
  | .connected pubkey => { s with peers := s.peers.insert pubkey }
  | .disconnected pubkey => { s with peers := s.peers.filter (· ≠ pubkey) }

/-- No peers, and no tasks. -/
def initial : State E A := ⟨[], none, []⟩

/-- The state after the first `n` events. -/
def stateAt (events : List (Event E A)) (n : Nat) : State E A := (events.take n).foldl step initial

/-- The keys of the tasks. -/
def State.keys (s : State E A) : List (PublicKey E) := s.tasks.map Task.pubkey

/-- **At most one task for each key.** -/
def State.OneTask (s : State E A) : Prop := ∀ pubkey, s.keys.count pubkey ≤ 1

/-- The event is not a command for a peer that has a task and is not connected. -/
def Event.Unattended (s : State E A) : Event E A → Prop
  | .command env name words => s.calling = none →
      ∀ peer ∈ connectTarget env name words, peer.1 ∈ s.peers ∨ peer.1 ∉ s.keys
  | _ => True

/-- No command of the run is for a peer that has a task and is not connected. -/
def UnattendedOnly (events : List (Event E A)) : Prop :=
  ∀ (n : Nat) (event : Event E A), events[n]? = some event → event.Unattended (stateAt events n)

/-! ## One event -/

/-- The keys of the tasks, and of the one that will be spawned when the call returns. -/
def State.due (s : State E A) : List (PublicKey E) :=
  s.keys ++ s.calling.toList.map Call.pubkey

/-- The peer that an event starts to dial from the command line. -/
def State.dials (s : State E A) : Event E A → Option (PublicKey E)
  | .command env name words =>
    if s.calling.isSome then none
    else (connectTarget env name words).bind fun peer =>
      if peer.1 ∈ s.peers then none else some peer.1
  | _ => none

theorem map_pubkey_modify (f : Task E A → Task E A) (hf : ∀ task, (f task).pubkey = task.pubkey)
    (tasks : List (Task E A)) (i : Nat) :
    (tasks.modify i f).map Task.pubkey = tasks.map Task.pubkey := by
  induction tasks generalizing i with
  | nil => cases i <;> rfl
  | cons task tasks ih =>
    cases i with
    | zero => simp [hf]
    | succ i => simp [ih]

theorem Task.tick_pubkey (peers : List (PublicKey E)) (task : Task E A) :
    (task.tick peers).pubkey = task.pubkey := by
  unfold Task.tick
  split
  · split
    · rfl
    · rfl
  · rfl

theorem Task.redial_pubkey (peers : List (PublicKey E)) (event : DialEvent) (task : Task E A) :
    (task.redial peers event).pubkey = task.pubkey := by
  unfold Task.redial
  split
  · rfl
  · split
    · rfl
    · rfl

/-- When the call returns, its key goes over to the tasks. -/
theorem due_dialled (s : State E A) (event : DialEvent) : (s.dialled event).due = s.due := by
  unfold State.dialled
  cases hcalling : s.calling with
  | none => rfl
  | some call =>
    dsimp only
    cases doConnectPeer s.peers call.pubkey call.dial event with
    | inl dial => simp [State.due, State.keys, hcalling]
    | inr result => simp [State.due, State.keys, hcalling]

/-- **What an event does to the keys**: it adds the peer it starts to dial, if any. -/
theorem due_step (s : State E A) (event : Event E A) :
    (step s event).due = s.due ++ (s.dials event).toList := by
  cases event with
  | command env name words =>
    cases hcalling : s.calling with
    | some call => simp [step, State.dials, hcalling]
    | none =>
      cases htarget : connectTarget env name words with
      | none => simp [step, State.dials, hcalling, htarget]
      | some peer =>
        by_cases hpeer : peer.1 ∈ s.peers
        · simp [step, State.dials, hcalling, htarget, State.connectPeerIfNecessary, hpeer]
        · simp [step, State.dials, hcalling, htarget, State.connectPeerIfNecessary, hpeer,
            State.due, State.keys]
  | dialled event => exact (due_dialled s event).trans (List.append_nil _).symm
  | tick i =>
    simp [step, State.dials, State.due, State.keys,
      map_pubkey_modify _ (Task.tick_pubkey s.peers)]
  | redialled i event =>
    simp [step, State.dials, State.due, State.keys,
      map_pubkey_modify _ (Task.redial_pubkey s.peers event)]
  | connected pubkey => exact (List.append_nil _).symm
  | disconnected pubkey => exact (List.append_nil _).symm

/-- A command is for a peer without a task exactly if the peer it dials, if any, is not due. -/
theorem unattended_iff (s : State E A) (event : Event E A) :
    event.Unattended s ↔ ∀ pubkey ∈ s.dials event, pubkey ∉ s.due := by
  cases event with
  | command env name words =>
    cases hcalling : s.calling with
    | some call => simp [Event.Unattended, State.dials, hcalling]
    | none =>
      have hdue : s.due = s.keys := by simp [State.due, hcalling]
      cases htarget : connectTarget env name words with
      | none => simp [Event.Unattended, State.dials, hcalling, htarget]
      | some peer =>
        by_cases hpeer : peer.1 ∈ s.peers
        · simp [Event.Unattended, State.dials, hcalling, htarget, hpeer]
        · simp [Event.Unattended, State.dials, hcalling, htarget, hpeer, hdue]
  | _ => simp [Event.Unattended, State.dials]

theorem oneTask_iff (s : State E A) : s.OneTask ↔ s.keys.Nodup :=
  List.nodup_iff_count_le_one.symm

/-! ## Runs -/

theorem stateAt_succ {events : List (Event E A)} {n : Nat} {event : Event E A}
    (h : events[n]? = some event) :
    stateAt events (n + 1) = step (stateAt events n) event := by
  rw [stateAt, List.take_add_one, h, List.foldl_append]
  rfl

/-- What the next event of a run, if there is one, does to the keys. -/
theorem due_stateAt_succ (events : List (Event E A)) (n : Nat) :
    (stateAt events (n + 1)).due =
      (stateAt events n).due ++ (events[n]?.bind (stateAt events n).dials).toList := by
  cases hevent : events[n]? with
  | none =>
    have hend : stateAt events (n + 1) = stateAt events n := by
      rw [stateAt, List.take_add_one, hevent, Option.toList_none, List.append_nil]
      rfl
    rw [hend]
    exact (List.append_nil _).symm
  | some event => rw [stateAt_succ hevent, due_step, Option.bind_some]

/-- **Keys are only ever added**, in the order in which their peers were dialled. -/
theorem due_le {events : List (Event E A)} {n m : Nat} (h : n ≤ m) :
    (stateAt events n).due <+: (stateAt events m).due := by
  induction m, h using Nat.le_induction with
  | base => exact List.prefix_rfl
  | succ m _ ih =>
    rw [due_stateAt_succ]
    exact ih.trans (List.prefix_append _ _)

/-- No key is due twice if no command is for a peer with a task. -/
theorem nodup_due {events : List (Event E A)} (h : UnattendedOnly events) (n : Nat) :
    (stateAt events n).due.Nodup := by
  induction n with
  | zero => exact List.nodup_nil
  | succ n ih =>
    rw [due_stateAt_succ]
    cases hdials : events[n]?.bind (stateAt events n).dials with
    | none => simpa using ih
    | some pubkey =>
      obtain ⟨event, hevent, hpubkey⟩ := Option.bind_eq_some_iff.mp hdials
      have hfresh := (unattended_iff _ event).mp (h n event hevent) pubkey hpubkey
      rw [Option.toList_some, ← List.concat_eq_append, List.nodup_concat]
      exact ⟨hfresh, ih⟩

/-- **At most one task for each peer**, in every state of every run in which no command is given for
a peer that has a task and is not connected; and in a run that has more than one task at no time
and ends with no call under way there is no such command. -/
theorem reconnect_tasks (events : List (Event E A)) :
    (UnattendedOnly events → ∀ n, (stateAt events n).OneTask) ∧
    ((stateAt events events.length).calling = none →
      (∀ n, (stateAt events n).OneTask) → UnattendedOnly events) := by
  constructor
  · intro h n
    rw [oneTask_iff]
    exact (List.nodup_append.mp (nodup_due h n)).1
  · intro hidle hone n event hevent
    rw [unattended_iff]
    intro pubkey hdials hmem
    -- at the end there is a task for every key that was due
    have hend : (stateAt events events.length).due.Nodup := by
      have hkeys := (oneTask_iff _).mp (hone events.length)
      simpa [State.due, hidle] using hkeys
    have hlt : n < events.length := (List.getElem?_eq_some_iff.mp hevent).1
    have hnodup := (due_le hlt).sublist.nodup hend
    rw [stateAt_succ hevent, due_step, Option.mem_def.mp hdials, Option.toList_some,
      ← List.concat_eq_append, List.nodup_concat] at hnodup
    exact hnodup.1 hmem

/-! ## A peer that does not answer -/

/-- Where node 2 is. -/
def otherPeerString : Text := secondKey.toText ++ "@127.0.0.1:9736".toList

/-- `connectpeer` to node 1, which cannot be reached. -/
def refusedConnect : List (Event sampleKeys Unit) :=
  [.command sampleEnv .connectpeer [peerString], .dialled (.outbound false)]

/-- The task of node 1 gets through, and a second command finds the node connected.  It leaves
again, and then a connection to node 2 is closed before it is up. -/
def twoPeers : List (Event sampleKeys Unit) :=
  refusedConnect ++
    [.tick 0, .redialled 0 (.outbound true), .connected firstKey, .redialled 0 .pending,
      .command sampleEnv .connectpeer [peerString], .disconnected firstKey, .tick 0,
      .command sampleEnv .connectpeer [otherPeerString],
      .dialled (.outbound true), .redialled 0 (.outbound false), .dialled .closed]

theorem connectTarget_peerString :
    connectTarget sampleEnv .connectpeer [peerString] = some (firstKey, ()) := by decide

theorem connectTarget_otherPeerString :
    connectTarget sampleEnv .connectpeer [otherPeerString] = some (secondKey, ()) := by decide

/-- There is one task for each of the two nodes. -/
theorem reconnect_tasks_of_two : (stateAt twoPeers 13).keys = [firstKey, secondKey] ∧
    ∀ n, (stateAt twoPeers n).OneTask := by
  refine ⟨by decide, (reconnect_tasks twoPeers).1 ?_⟩
  intro n event hevent
  rcases n with _ | _ | _ | _ | _ | _ | _ | _ | _ | _ | _ | _ | _ | n <;> cases hevent
  all_goals first | trivial | skip
  · intro _ peer _
    exact Or.inr (by simp [stateAt, initial, State.keys])
  · intro _ peer hpeer
    rw [connectTarget_peerString] at hpeer
    cases hpeer
    exact Or.inl (by decide)
  · intro _ peer hpeer
    rw [connectTarget_otherPeerString] at hpeer
    cases hpeer
    exact Or.inr (by decide)

/-- Asked twice, there are two tasks that dial node 1 for ever. -/
theorem reconnect_tasks_twice :
    ¬ (stateAt (refusedConnect ++ refusedConnect) 4).OneTask := by
  intro h
  exact absurd (h firstKey) (by decide)

end Reconnect
end HiddenLightning
