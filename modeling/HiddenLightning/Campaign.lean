import HiddenLightning.Probe

/-! # The probing campaign

`probeall` (`cli.rs`) goes through a list of nodes and, for each, through the transactions
of its files, newest block first, and probes every output that could be a channel the node
keeps to itself.  A node to which there is no route is passed over; a transaction is passed
over if it fails the assumptions, if its short channel id is public, or if the attempt
table had a conclusive row for it when the campaign began.

The three nested loops are a machine (`Pc.step`): a state is a point of the code with the
work that lies ahead, and a step is what the code does until the next point where it looks
at something outside of it.  What it finds there is a `Moment`: how often Ctrl-C was
pressed, the pending payments, the router.  A run is any number of steps, so a program that
is killed at some point is a run as well.

`run_calls` says what `probe` is called with in any run, and `run_sent` what has been sent
when a run is left alone.
-/
namespace HiddenLightning
open Numerals

variable {E : Secp256k1}

/-! ## What is probed -/

/-- `Transaction`: an unspent output. -/
structure Transaction where
  blockHeight : UInt64
  id : Text
  blockIndex : UInt64
  transactionIndex : UInt64
  amount : UInt64
deriving DecidableEq

/-- `scid_from_parts`. -/
def scidFromParts (block txIndex voutIndex : UInt64) : UInt64 :=
  (block <<< 40) ||| (txIndex <<< 16) ||| voutIndex

/-- The short channel id of a channel funded by the output. -/
def Transaction.scid (tx : Transaction) : UInt64 :=
  scidFromParts tx.blockHeight tx.blockIndex tx.transactionIndex

/-- What `probeall` works on: its type of probing, the nodes, the transactions as they were
read, and the public channels. -/
structure Campaign where
  probetype : Text
  nodes : List Text
  txs : List Transaction
  shortChannelIds : List UInt64

/-- The transactions by falling block height; the sort is stable. -/
def Campaign.sortedTxs (c : Campaign) : List Transaction :=
  c.txs.mergeSort fun a b => b.blockHeight ≤ a.blockHeight

/-- The guess of `probeall`. -/
def hardcodedGuess : Text :=
  "03b2c32c46e0b4b720c4f45f02a0cc4c5475df7ce4d5b1ab563961b1681c6917d6".toList

/-- The key of a pair: `format!("{}:{}", node.pubkey, scid.to_string())`. -/
def attemptKey (node : Text) (scid : UInt64) : Text := node ++ ':' :: decimal scid.toNat

/-- The transaction is passed over. -/
def Campaign.skips (c : Campaign) (setOfAttempts : Text → Option Verdict) (node : Text)
    (tx : Transaction) : Bool :=
  (c.probetype = "assumptions".toList ∧ (tx.amount % 10000 ≠ 0 ∨ 1 < tx.transactionIndex)) ∨
    tx.scid ∈ c.shortChannelIds ∨ (setOfAttempts (attemptKey node tx.scid)).isSome

/-! ## The loops -/

/-- A point of the loops. -/
inductive Pc where
  /-- `for node in nodes`. -/
  | nextNode (nodes : List Text)
  /-- `for (i, tx) in txptr.into_iter().enumerate()`. -/
  | nextTx (node : Text) (txs : List Transaction) (nodes : List Text)
  /-- Waiting for pending HTLCs to clear. -/
  | throttle (node : Text) (tx : Transaction) (txs : List Transaction) (nodes : List Text)
  /-- Before the second look at the signal. -/
  | signal (node : Text) (tx : Transaction) (txs : List Transaction) (nodes : List Text)
  /-- Probing this one until it succeeds. -/
  | probing (node : Text) (tx : Transaction) (txs : List Transaction) (nodes : List Text)
  | finished

variable (E) in
/-- What the loops find when they look: the count of interrupts, the pending payments, and what
`find_routes` and `probe` meet. -/
structure Moment where
  running : Nat
  pendingPayments : PaymentInfoStorage
  router : Router E
  sendAlongPath : List (RouteHop E) → PathResult
  preimage : List UInt8
  hash : List UInt8

/-- A call of `probe`, and whether it returned `Ok`. -/
structure Call where
  node : Text
  scid : UInt64
  ok : Bool
deriving DecidableEq

/-- After a step: the next point, the pending payments, and the call of `probe` if there was
one. -/
structure Moved where
  pc : Pc
  pendingPayments : PaymentInfoStorage
  call : Option Call

/-- A step in which `probe` is not called. -/
def Moment.to (m : Moment E) (pc : Pc) : Moved := ⟨pc, m.pendingPayments, none⟩

/-- One step; `none` when `probe` panics. -/
def Pc.step (us : PublicKey E) (c : Campaign) (setOfAttempts : Text → Option Verdict)
    (m : Moment E) : Pc → Option Moved
  | .nextNode [] => some (m.to .finished)
  | .nextNode (node :: nodes) =>
    -- first try to see if we can even find normal routes
    match findRoutes m.router node [] with
    | some _ => some (m.to (.nextTx node c.sortedTxs nodes))
    | none => some (m.to (.nextNode nodes))
  | .nextTx _ [] nodes => some (m.to (.nextNode nodes))
  | .nextTx node (tx :: txs) nodes => some (m.to (.throttle node tx txs nodes))
  | .throttle node tx txs nodes =>
    if 0 < m.running then some (m.to (.signal node tx txs nodes))
    else if 30 < m.pendingPayments.keys.length then some (m.to (.throttle node tx txs nodes))
    else some (m.to (.signal node tx txs nodes))
  | .signal node tx txs nodes =>
    -- this leaves the loop over the transactions only
    if 0 < m.running then some (m.to (.nextNode nodes))
    else if c.skips setOfAttempts node tx then some (m.to (.nextTx node txs nodes))
    else some (m.to (.probing node tx txs nodes))
  | .probing node tx txs nodes =>
    match probe us m.router m.sendAlongPath m.preimage m.hash node (decimal tx.scid.toNat)
      hardcodedGuess m.pendingPayments with
    | none => none
    | some (pending, .ok _) => some ⟨.nextTx node txs nodes, pending, some ⟨node, tx.scid, true⟩⟩
    | some (pending, .error _) =>
      some ⟨.probing node tx txs nodes, pending, some ⟨node, tx.scid, false⟩⟩
  | .finished => some (m.to .finished)

/-- Any number of steps: the point reached, and the calls of `probe`. -/
def Pc.run (us : PublicKey E) (c : Campaign) (setOfAttempts : Text → Option Verdict) :
    List (Moment E) → Pc → Option (Pc × List Call)
  | [], pc => some (pc, [])
  | m :: ms, pc =>
    (pc.step us c setOfAttempts m).bind fun moved =>
      (moved.pc.run us c setOfAttempts ms).map fun rest => (rest.1, moved.call.toList ++ rest.2)

/-! ## The work ahead -/

/-- The rounds over the transactions, node by node. -/
def Campaign.rounds (c : Campaign) (nodes : List Text) : List (Text × Transaction) :=
  nodes.flatMap fun node => c.sortedTxs.map fun tx => (node, tx)

/-- What lies ahead, the current transaction included. -/
def Pc.ahead (c : Campaign) : Pc → List (Text × Transaction)
  | .nextNode nodes => c.rounds nodes
  | .nextTx node txs nodes => txs.map (fun tx => (node, tx)) ++ c.rounds nodes
  | .throttle node tx txs nodes => (node, tx) :: (txs.map (fun tx => (node, tx)) ++ c.rounds nodes)
  | .signal node tx txs nodes => (node, tx) :: (txs.map (fun tx => (node, tx)) ++ c.rounds nodes)
  | .probing node tx txs nodes => (node, tx) :: (txs.map (fun tx => (node, tx)) ++ c.rounds nodes)
  | .finished => []

theorem mem_rounds {c : Campaign} {nodes : List Text} {node : Text} {tx : Transaction} :
    (node, tx) ∈ c.rounds nodes ↔ node ∈ nodes ∧ tx ∈ c.txs := by
  simp [Campaign.rounds, Campaign.sortedTxs]

/-- A point the campaign can come to: what lies ahead is of its rounds, and only what is not to
be passed over is being probed. -/
structure Pc.Within (c : Campaign) (setOfAttempts : Text → Option Verdict) (pc : Pc) : Prop where
  ahead : ∀ p ∈ pc.ahead c, p ∈ c.rounds c.nodes
  fresh : ∀ node tx txs nodes, pc = .probing node tx txs nodes →
    c.skips setOfAttempts node tx = false

/-- A call of the campaign: a pair of its rounds that is not to be passed over. -/
def Campaign.Calls (c : Campaign) (setOfAttempts : Text → Option Verdict) (call : Call) : Prop :=
  ∃ tx, (call.node, tx) ∈ c.rounds c.nodes ∧ call.scid = tx.scid ∧
    c.skips setOfAttempts call.node tx = false

/-! ## What a step can do -/

/-- The steps, one by one. -/
inductive Pc.Move (c : Campaign) (setOfAttempts : Text → Option Verdict) (m : Moment E) :
    Pc → Pc → Option Call → Prop
  | finish : Move c setOfAttempts m (.nextNode []) .finished none
  | route (node : Text) (nodes : List Text) (h : (findRoutes m.router node []).isSome) :
      Move c setOfAttempts m (.nextNode (node :: nodes)) (.nextTx node c.sortedTxs nodes) none
  | noRoute (node : Text) (nodes : List Text) (h : findRoutes m.router node [] = none) :
      Move c setOfAttempts m (.nextNode (node :: nodes)) (.nextNode nodes) none
  | noTx (node : Text) (nodes : List Text) :
      Move c setOfAttempts m (.nextTx node [] nodes) (.nextNode nodes) none
  | take (node : Text) (tx : Transaction) (txs : List Transaction) (nodes : List Text) :
      Move c setOfAttempts m (.nextTx node (tx :: txs) nodes) (.throttle node tx txs nodes) none
  | wait (node : Text) (tx : Transaction) (txs : List Transaction) (nodes : List Text)
      (hrunning : m.running = 0) (h : 30 < m.pendingPayments.keys.length) :
      Move c setOfAttempts m (.throttle node tx txs nodes) (.throttle node tx txs nodes) none
  | go (node : Text) (tx : Transaction) (txs : List Transaction) (nodes : List Text)
      (h : 0 < m.running ∨ m.pendingPayments.keys.length ≤ 30) :
      Move c setOfAttempts m (.throttle node tx txs nodes) (.signal node tx txs nodes) none
  | interrupted (node : Text) (tx : Transaction) (txs : List Transaction) (nodes : List Text)
      (h : 0 < m.running) :
      Move c setOfAttempts m (.signal node tx txs nodes) (.nextNode nodes) none
  | skip (node : Text) (tx : Transaction) (txs : List Transaction) (nodes : List Text)
      (hrunning : m.running = 0) (h : c.skips setOfAttempts node tx = true) :
      Move c setOfAttempts m (.signal node tx txs nodes) (.nextTx node txs nodes) none
  | begin (node : Text) (tx : Transaction) (txs : List Transaction) (nodes : List Text)
      (hrunning : m.running = 0) (h : c.skips setOfAttempts node tx = false) :
      Move c setOfAttempts m (.signal node tx txs nodes) (.probing node tx txs nodes) none
  | sent (node : Text) (tx : Transaction) (txs : List Transaction) (nodes : List Text) :
      Move c setOfAttempts m (.probing node tx txs nodes) (.nextTx node txs nodes)
        (some ⟨node, tx.scid, true⟩)
  | retry (node : Text) (tx : Transaction) (txs : List Transaction) (nodes : List Text) :
      Move c setOfAttempts m (.probing node tx txs nodes) (.probing node tx txs nodes)
        (some ⟨node, tx.scid, false⟩)
  | stay : Move c setOfAttempts m .finished .finished none

variable {us : PublicKey E} {c : Campaign} {setOfAttempts : Text → Option Verdict}

theorem Pc.step_move {m : Moment E} {pc : Pc} {moved : Moved}
    (h : pc.step us c setOfAttempts m = some moved) :
    Move c setOfAttempts m pc moved.pc moved.call := by
  unfold Pc.step at h
  split at h
  case h_1 =>
    cases h
    exact .finish
  case h_2 node nodes =>
    split at h
    · rename_i hroute
      cases h
      exact .route node nodes (by rw [hroute]; rfl)
    · rename_i hroute
      cases h
      exact .noRoute node nodes hroute
  case h_3 node nodes =>
    cases h
    exact .noTx node nodes
  case h_4 node tx txs nodes =>
    cases h
    exact .take node tx txs nodes
  case h_5 node tx txs nodes =>
    split_ifs at h with hrunning hlen
    · cases h
      exact .go node tx txs nodes (Or.inl hrunning)
    · cases h
      exact .wait node tx txs nodes (by omega) hlen
    · cases h
      exact .go node tx txs nodes (Or.inr (by omega))
  case h_6 node tx txs nodes =>
    split_ifs at h with hrunning hskips
    · cases h
      exact .interrupted node tx txs nodes hrunning
    · cases h
      exact .skip node tx txs nodes (by omega) hskips
    · cases h
      exact .begin node tx txs nodes (by omega) (by simpa using hskips)
  case h_7 node tx txs nodes =>
    split at h
    · cases h
    · cases h
      exact .sent node tx txs nodes
    · cases h
      exact .retry node tx txs nodes
  case h_8 =>
    cases h
    exact .stay

theorem Pc.run_cons {m : Moment E} {ms : List (Moment E)} {pc pc' : Pc} {calls : List Call}
    (h : pc.run us c setOfAttempts (m :: ms) = some (pc', calls)) :
    ∃ moved rest, pc.step us c setOfAttempts m = some moved ∧
      moved.pc.run us c setOfAttempts ms = some (pc', rest) ∧
      calls = moved.call.toList ++ rest := by
  obtain ⟨moved, hstep, hmap⟩ := Option.bind_eq_some_iff.mp h
  obtain ⟨⟨pc'', rest⟩, hrest, heq⟩ := Option.map_eq_some_iff.mp hmap
  obtain ⟨rfl, rfl⟩ := Prod.mk.inj heq
  exact ⟨moved, rest, hstep, hrest, rfl⟩

theorem Pc.run_to {m : Moment E} {ms : List (Moment E)} {pc pc' : Pc}
    (h : pc.step us c setOfAttempts m = some (m.to pc')) :
    pc.run us c setOfAttempts (m :: ms) = pc'.run us c setOfAttempts ms := by
  rw [Pc.run, h, Option.bind_some]
  exact Option.map_id'

theorem Pc.run_append (ms ms' : List (Moment E)) (pc : Pc) :
    pc.run us c setOfAttempts (ms ++ ms') = (pc.run us c setOfAttempts ms).bind fun out =>
      (out.1.run us c setOfAttempts ms').map fun rest => (rest.1, out.2 ++ rest.2) := by
  induction ms generalizing pc with
  | nil => simp [Pc.run]
  | cons m ms ih =>
    rw [List.cons_append, Pc.run, Pc.run]
    cases pc.step us c setOfAttempts m with
    | none => rfl
    | some moved =>
      rw [Option.bind_some, Option.bind_some, ih]
      cases moved.pc.run us c setOfAttempts ms with
      | none => rfl
      | some out => simp [Option.map_map, Function.comp_def]

/-- A step keeps to the rounds, and calls `probe` only for what is not to be passed over. -/
theorem Pc.Within.move {m : Moment E} {pc pc' : Pc} {call : Option Call}
    (h : pc.Within c setOfAttempts) (hmove : Move c setOfAttempts m pc pc' call) :
    pc'.Within c setOfAttempts ∧ ∀ call' ∈ call, c.Calls setOfAttempts call' := by
  cases hmove with
  | finish | stay => exact ⟨⟨nofun, nofun⟩, nofun⟩
  | route node nodes _ => exact ⟨⟨fun p hp => h.ahead p hp, nofun⟩, nofun⟩
  | noRoute node nodes _ =>
    exact ⟨⟨fun p hp => h.ahead p (List.mem_append_right _ hp), nofun⟩, nofun⟩
  | noTx node nodes => exact ⟨⟨fun p hp => h.ahead p hp, nofun⟩, nofun⟩
  | take node tx txs nodes | wait node tx txs nodes _ _ | go node tx txs nodes _ =>
    exact ⟨⟨fun p hp => h.ahead p hp, nofun⟩, nofun⟩
  | interrupted node tx txs nodes _ =>
    exact ⟨⟨fun p hp => h.ahead p (List.mem_cons_of_mem _ (List.mem_append_right _ hp)), nofun⟩,
      nofun⟩
  | skip node tx txs nodes _ _ =>
    exact ⟨⟨fun p hp => h.ahead p (List.mem_cons_of_mem _ hp), nofun⟩, nofun⟩
  | begin node tx txs nodes _ hskips =>
    refine ⟨⟨fun p hp => h.ahead p hp, ?_⟩, nofun⟩
    rintro _ _ _ _ ⟨⟩
    exact hskips
  | sent node tx txs nodes =>
    refine ⟨⟨fun p hp => h.ahead p (List.mem_cons_of_mem _ hp), nofun⟩, ?_⟩
    rintro _ ⟨⟩
    exact ⟨tx, h.ahead _ List.mem_cons_self, rfl, h.fresh node tx txs nodes rfl⟩
  | retry node tx txs nodes =>
    refine ⟨h, ?_⟩
    rintro _ ⟨⟩
    exact ⟨tx, h.ahead _ List.mem_cons_self, rfl, h.fresh node tx txs nodes rfl⟩

theorem Pc.Within.start (c : Campaign) (setOfAttempts : Text → Option Verdict) :
    (Pc.nextNode c.nodes).Within c setOfAttempts := ⟨fun _ hp => hp, nofun⟩

theorem Pc.Within.run {ms : List (Moment E)} {pc pc' : Pc} {calls : List Call}
    (h : pc.Within c setOfAttempts) (hrun : pc.run us c setOfAttempts ms = some (pc', calls)) :
    pc'.Within c setOfAttempts := by
  induction ms generalizing pc calls with
  | nil =>
    cases hrun
    exact h
  | cons m ms ih =>
    obtain ⟨moved, rest, hstep, hrest, -⟩ := Pc.run_cons hrun
    exact ih (h.move (Pc.step_move hstep)).1 hrest

/-- **In any run, `probe` is called only for pairs of the campaign that are not to be passed
over.** -/
theorem Pc.Within.run_calls {ms : List (Moment E)} {pc pc' : Pc} {calls : List Call}
    (h : pc.Within c setOfAttempts) (hrun : pc.run us c setOfAttempts ms = some (pc', calls)) :
    ∀ call ∈ calls, c.Calls setOfAttempts call := by
  induction ms generalizing pc calls with
  | nil =>
    cases hrun
    exact nofun
  | cons m ms ih =>
    obtain ⟨moved, rest, hstep, hrest, rfl⟩ := Pc.run_cons hrun
    obtain ⟨hwithin, hcall⟩ := h.move (Pc.step_move hstep)
    intro call hmem
    rcases List.mem_append.mp hmem with hfirst | hlater
    · exact hcall call (Option.mem_toList.mp hfirst)
    · exact ih hwithin hrest call hlater

theorem exists_probe {router : Router E} {sendAlongPath : List (RouteHop E) → PathResult}
    {preimage hash : List UInt8} {pubkeyStr channelIdStr pubkeyGuess : Text}
    {pending : PaymentInfoStorage} (h : (PublicKey.fromText E pubkeyStr).isSome) :
    ∃ out, probe us router sendAlongPath preimage hash pubkeyStr channelIdStr pubkeyGuess
      pending = some out := by
  rw [probe]
  split
  · rename_i hnone
    rw [hnone] at h
    cases h
  split
  · exact ⟨_, rfl⟩
  split
  · exact ⟨_, rfl⟩
  · dsimp only
    split <;> exact ⟨_, rfl⟩

/-- The node whose turn it is. -/
def Pc.node : Pc → Option Text
  | .nextTx node _ _ => some node
  | .throttle node _ _ _ => some node
  | .signal node _ _ _ => some node
  | .probing node _ _ _ => some node
  | _ => none

variable (E) in
/-- The node whose turn it is has a public key for a name. -/
def Pc.Named (pc : Pc) : Prop := ∀ node ∈ pc.node, (PublicKey.fromText E node).isSome

theorem isSome_fromText_of_findRoutes {router : Router E} {payeePubkey : Text}
    {privateRoutes : List (List (RouteHintHop E))}
    (h : (findRoutes router payeePubkey privateRoutes).isSome) :
    (PublicKey.fromText E payeePubkey).isSome := by
  rw [findRoutes] at h
  split at h
  · cases h
  · rename_i hkey
    rw [hkey]
    rfl

/-- A node gets its turn only once a route to it was found. -/
theorem Pc.Named.move {m : Moment E} {pc pc' : Pc} {call : Option Call} (h : pc.Named E)
    (hmove : Move c setOfAttempts m pc pc' call) : pc'.Named E := by
  cases hmove with
  | route node nodes hroute =>
    rintro _ ⟨⟩
    exact isSome_fromText_of_findRoutes hroute
  | finish | noRoute | noTx | interrupted | stay => exact nofun
  | take | wait | go | skip | begin | sent | retry => exact h

theorem Pc.Named.exists_step {pc : Pc} (h : pc.Named E) (m : Moment E) :
    ∃ moved, pc.step us c setOfAttempts m = some moved := by
  unfold Pc.step
  split
  case h_2 => split <;> exact ⟨_, rfl⟩
  case h_5 | h_6 => split_ifs <;> exact ⟨_, rfl⟩
  case h_7 node tx txs nodes =>
    -- the one step that could panic
    split
    · rename_i hpanic
      obtain ⟨out, hprobe⟩ := exists_probe (h node rfl)
      rw [hprobe] at hpanic
      cases hpanic
    · exact ⟨_, rfl⟩
    · exact ⟨_, rfl⟩
  all_goals exact ⟨_, rfl⟩

/-- **The loops never panic**, whatever stands in the list of nodes. -/
theorem Pc.Named.exists_run {pc : Pc} (h : pc.Named E) (ms : List (Moment E)) :
    ∃ out, pc.run us c setOfAttempts ms = some out := by
  induction ms generalizing pc with
  | nil => exact ⟨_, rfl⟩
  | cons m ms ih =>
    obtain ⟨moved, hstep⟩ : ∃ moved, pc.step us c setOfAttempts m = some moved := h.exists_step m
    obtain ⟨out, hrest⟩ := ih (h.move (Pc.step_move hstep))
    exact ⟨_, by rw [Pc.run, hstep, Option.bind_some, hrest]; rfl⟩

theorem Pc.named_nextNode (nodes : List Text) : (Pc.nextNode nodes).Named E := nofun

/-! ## A run that is left alone -/

/-- The pairs that are to be probed among these. -/
def Campaign.wanted (c : Campaign) (setOfAttempts : Text → Option Verdict)
    (rounds : List (Text × Transaction)) : List (Text × UInt64) :=
  (rounds.filter fun p => !c.skips setOfAttempts p.1 p.2).map fun p => (p.1, p.2.scid)

/-- The pairs whose probe was sent. -/
def sentPairs (calls : List Call) : List (Text × UInt64) :=
  (calls.filter Call.ok).map fun call => (call.node, call.scid)

/-- If the loops look for a route now, they find one. -/
def Pc.Reaches (m : Moment E) : Pc → Prop
  | .nextNode (node :: _) => (findRoutes m.router node []).isSome
  | _ => True

/-- No step of the run sees an interrupt, and every node is reachable when it is its turn. -/
def Pc.Undisturbed (us : PublicKey E) (c : Campaign) (setOfAttempts : Text → Option Verdict) :
    List (Moment E) → Pc → Prop
  | [], _ => True
  | m :: ms, pc => m.running = 0 ∧ pc.Reaches m ∧
      ∀ moved, pc.step us c setOfAttempts m = some moved →
        moved.pc.Undisturbed us c setOfAttempts ms

theorem wanted_cons (c : Campaign) (setOfAttempts : Text → Option Verdict) (node : Text)
    (tx : Transaction) (rounds : List (Text × Transaction)) :
    c.wanted setOfAttempts ((node, tx) :: rounds) =
      if c.skips setOfAttempts node tx then c.wanted setOfAttempts rounds
      else (node, tx.scid) :: c.wanted setOfAttempts rounds := by
  by_cases h : c.skips setOfAttempts node tx
  · simp [Campaign.wanted, h]
  · simp [Campaign.wanted, h]

/-- What an undisturbed step sends is what it takes off the work ahead. -/
theorem Pc.Within.move_sent {m : Moment E} {pc pc' : Pc} {call : Option Call}
    (h : pc.Within c setOfAttempts) (hrunning : m.running = 0) (hreaches : pc.Reaches m)
    (hmove : Move c setOfAttempts m pc pc' call) :
    sentPairs call.toList ++ c.wanted setOfAttempts (pc'.ahead c) =
      c.wanted setOfAttempts (pc.ahead c) := by
  cases hmove with
  | finish | stay | route | noTx | take | wait | go | begin | retry => rfl
  | noRoute node nodes hroute =>
    have hfound : (findRoutes m.router node []).isSome := hreaches
    rw [hroute] at hfound
    cases hfound
  | interrupted node tx txs nodes hinterrupt => omega
  | skip node tx txs nodes _ hskips =>
    show c.wanted _ _ = c.wanted _ (_ :: _)
    rw [wanted_cons, if_pos hskips]
    rfl
  | sent node tx txs nodes =>
    have hskips := h.fresh node tx txs nodes rfl
    show _ = c.wanted _ (_ :: _)
    rw [wanted_cons, hskips]
    rfl

/-- **A run left alone has sent, in order, what it has taken off the work ahead.** -/
theorem Pc.Within.run_sent {ms : List (Moment E)} {pc pc' : Pc} {calls : List Call}
    (h : pc.Within c setOfAttempts) (hrun : pc.run us c setOfAttempts ms = some (pc', calls))
    (hleft : pc.Undisturbed us c setOfAttempts ms) :
    sentPairs calls ++ c.wanted setOfAttempts (pc'.ahead c) =
      c.wanted setOfAttempts (pc.ahead c) := by
  induction ms generalizing pc calls with
  | nil =>
    cases hrun
    rfl
  | cons m ms ih =>
    obtain ⟨moved, rest, hstep, hrest, rfl⟩ := Pc.run_cons hrun
    obtain ⟨hrunning, hreaches, hafter⟩ := hleft
    have hmove := Pc.step_move hstep
    calc sentPairs (moved.call.toList ++ rest) ++ c.wanted setOfAttempts (pc'.ahead c)
        = sentPairs moved.call.toList ++
            (sentPairs rest ++ c.wanted setOfAttempts (pc'.ahead c)) := by
          simp [sentPairs, List.filter_append]
      _ = sentPairs moved.call.toList ++ c.wanted setOfAttempts (moved.pc.ahead c) := by
          rw [ih (h.move hmove).1 hrest (hafter moved hstep)]
      _ = c.wanted setOfAttempts (pc.ahead c) := h.move_sent hrunning hreaches hmove

end HiddenLightning
