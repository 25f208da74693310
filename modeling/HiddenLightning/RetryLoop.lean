import HiddenLightning.Coverage

/-! # Getting out of the retry loop

When `probe` returns an error, `probeall` waits a moment and calls it again for the same
pair.  Neither the count of interrupts nor the route to the target is looked at in this
loop, so it is left only when `probe` succeeds.  If the target is the guessed node itself
the router refuses the hint every time, and the campaign is stuck there until the process
is killed (`retried_for_ever`).  And as `probe` asks for a route to the guess, not to the
target, it may go on succeeding for a target that cannot be reached any more.

`retry_left_iff` says which runs are as they should be: those in which there is a route to
the target whenever `probe` comes to be called, and in which no call that failed is followed
by an interrupt.
-/
namespace HiddenLightning
open Numerals

variable {E : Secp256k1} {us : PublicKey E} {c : Campaign}
  {setOfAttempts : Text → Option Verdict}

/-- When `probe` comes to be called for a target to which there is no route any more, it is not
called, and the next target is taken up; and after a call, whatever it returned, none is made if
there was an interrupt. -/
def Pc.LeavesRetry (us : PublicKey E) (c : Campaign) (setOfAttempts : Text → Option Verdict) :
    List (Moment E) → Pc → Prop
  | [], _ => True
  | m :: ms, pc => ∀ moved, pc.step us c setOfAttempts m = some moved →
      (∀ node tx txs nodes, pc = .probing node tx txs nodes →
        findRoutes m.router node [] = none → moved.call = none ∧ moved.pc = .nextNode nodes) ∧
      (moved.call ≠ none → ∀ m' ∈ ms.head?, 0 < m'.running → ∀ moved',
        moved.pc.step us c setOfAttempts m' = some moved' → moved'.call = none) ∧
      moved.pc.LeavesRetry us c setOfAttempts ms

/-- The calls made after an interrupt. -/
def Pc.interruptedCalls (us : PublicKey E) (c : Campaign) (setOfAttempts : Text → Option Verdict)
    (ms : List (Moment E)) (pc : Pc) : List Call :=
  pc.collect us c setOfAttempts (fun _ m call => if 0 < m.running then call.toList else []) ms

/-- Whenever `probe` comes to be called there is a route to the target, and after a call that
failed the loop finds no interrupt. -/
def Pc.RetriesClear (us : PublicKey E) (c : Campaign) (setOfAttempts : Text → Option Verdict) :
    List (Moment E) → Pc → Prop
  | [], _ => True
  | m :: ms, pc =>
      (∀ node tx txs nodes, pc = .probing node tx txs nodes →
        (findRoutes m.router node []).isSome) ∧
      ∀ moved, pc.step us c setOfAttempts m = some moved →
        (∀ call ∈ moved.call, call.ok = false → ∀ m' ∈ ms.head?, m'.running = 0) ∧
        moved.pc.RetriesClear us c setOfAttempts ms

/-! ## One step -/

/-- Where a call can lead: on to the next transaction, or to the same one again. -/
theorem Pc.Move.of_call {m : Moment E} {pc pc' : Pc} {call : Call}
    (h : Move c setOfAttempts m pc pc' (some call)) : ∃ node tx txs nodes,
      (call.ok = true ∧ pc' = .nextTx node txs nodes) ∨
      (call.ok = false ∧ call.node = node ∧ pc' = .probing node tx txs nodes) := by
  cases h with
  | sent node tx txs nodes => exact ⟨node, tx, txs, nodes, Or.inl ⟨rfl, rfl⟩⟩
  | retry node tx txs nodes => exact ⟨node, tx, txs, nodes, Or.inr ⟨rfl, rfl, rfl⟩⟩

/-- At the call of `probe` a call is made, whatever is found. -/
theorem Pc.Move.call_of_probing {m : Moment E} {node : Text} {tx : Transaction}
    {txs : List Transaction} {nodes : List Text} {pc' : Pc} {call : Option Call}
    (h : Move c setOfAttempts m (.probing node tx txs nodes) pc' call) : call ≠ none := by
  cases h with
  | sent => exact Option.some_ne_none _
  | retry => exact Option.some_ne_none _

/-- The next step calls `probe`. -/
def Pc.Calling : Pc → Prop
  | .probing .. => True
  | _ => False

/-- After an interrupt, no transaction is taken up that is not being probed. -/
theorem Pc.Move.not_calling {m : Moment E} {pc pc' : Pc} {call : Option Call}
    (h : Move c setOfAttempts m pc pc' call) (hrunning : 0 < m.running) (hpc : ¬ pc.Calling) :
    call = none ∧ ¬ pc'.Calling := by
  cases h with
  | wait | skip | begin => omega
  | sent | retry => exact absurd trivial hpc
  | finish | route | noRoute | noTx | take | go | interrupted | stay => exact ⟨rfl, id⟩

/-! ## Whole runs -/

theorem Pc.interruptedCalls_cons {m : Moment E} {ms : List (Moment E)} {pc : Pc} {moved : Moved}
    (h : pc.step us c setOfAttempts m = some moved) :
    pc.interruptedCalls us c setOfAttempts (m :: ms) =
      (if 0 < m.running then moved.call.toList else []) ++
        moved.pc.interruptedCalls us c setOfAttempts ms :=
  Pc.collect_cons _ h

theorem Pc.interruptedCalls_to {m : Moment E} {ms : List (Moment E)} {pc pc' : Pc}
    (h : pc.step us c setOfAttempts m = some (m.to pc')) :
    pc.interruptedCalls us c setOfAttempts (m :: ms) =
      pc'.interruptedCalls us c setOfAttempts ms := by
  rw [Pc.interruptedCalls_cons h]
  simp [Moment.to]

theorem Pc.interruptedCalls_of_panic {m : Moment E} {ms : List (Moment E)} {pc : Pc}
    (h : pc.step us c setOfAttempts m = none) :
    pc.interruptedCalls us c setOfAttempts (m :: ms) = [] := by
  rw [Pc.interruptedCalls, Pc.collect, h]

/-- **After an interrupt, nothing is called unless a call was under way.** -/
theorem Pc.interruptedCalls_eq_nil {ms : List (Moment E)} {pc : Pc} (hpc : ¬ pc.Calling)
    (hrunning : ∀ m ∈ ms, 0 < m.running) : pc.interruptedCalls us c setOfAttempts ms = [] := by
  induction ms generalizing pc with
  | nil => rfl
  | cons m ms ih =>
    cases hstep : pc.step us c setOfAttempts m with
    | none => exact Pc.interruptedCalls_of_panic hstep
    | some moved =>
      obtain ⟨hcall, hnext⟩ :=
        (Pc.step_move hstep).not_calling (hrunning m List.mem_cons_self) hpc
      rw [Pc.interruptedCalls_cons hstep, hcall,
        ih hnext fun m' hm' => hrunning m' (List.mem_cons_of_mem _ hm'), List.append_nil]
      exact if_pos (hrunning m List.mem_cons_self)

/-- If the loop finds nothing amiss after a call that failed, at most one call comes after an
interrupt. -/
theorem Pc.RetriesClear.interruptedCalls_le {ms : List (Moment E)} {pc : Pc}
    (h : pc.RetriesClear us c setOfAttempts ms)
    (hmono : (ms.map Moment.running).Pairwise (· ≤ ·)) :
    (pc.interruptedCalls us c setOfAttempts ms).length ≤ 1 := by
  induction ms generalizing pc with
  | nil => exact Nat.zero_le 1
  | cons m ms ih =>
    obtain ⟨hle, hmono'⟩ := List.pairwise_cons.mp hmono
    cases hstep : pc.step us c setOfAttempts m with
    | none =>
      rw [Pc.interruptedCalls_of_panic hstep]
      exact Nat.zero_le 1
    | some moved =>
      obtain ⟨hclear, hlater⟩ := h.2 moved hstep
      have hrest := ih hlater hmono'
      rw [Pc.interruptedCalls_cons hstep]
      by_cases hrunning : 0 < m.running
      · have hafter : ∀ m' ∈ ms, 0 < m'.running := by
          intro m' hm'
          have := hle m'.running (List.mem_map_of_mem hm')
          omega
        rw [if_pos hrunning]
        cases hcall : moved.call with
        | none => exact hrest
        | some call =>
          have hmove := Pc.step_move hstep
          rw [hcall] at hmove
          obtain ⟨node, tx, txs, nodes, ⟨-, hpc⟩ | ⟨hfailed, -, -⟩⟩ := hmove.of_call
          · -- the call succeeded, and the signal is seen before the next
            have hnot : ¬ moved.pc.Calling := by
              rw [hpc]
              exact id
            rw [Pc.interruptedCalls_eq_nil hnot hafter]
            exact le_rfl
          · -- the call failed, so the run ends here
            cases ms with
            | nil => exact le_rfl
            | cons m' ms =>
              have hnone := hclear call hcall hfailed m' rfl
              have := hafter m' List.mem_cons_self
              omega
      · rw [if_neg hrunning]
        exact hrest

/-- A run that is as it should be finds nothing amiss, since `probe` is called whatever is found. -/
theorem Pc.LeavesRetry.retriesClear {ms : List (Moment E)} {pc : Pc} (hnamed : pc.Named E)
    (h : pc.LeavesRetry us c setOfAttempts ms) : pc.RetriesClear us c setOfAttempts ms := by
  induction ms generalizing pc with
  | nil => trivial
  | cons m ms ih =>
    constructor
    · rintro node tx txs nodes rfl
      obtain ⟨moved, hstep⟩ : ∃ moved, (Pc.probing node tx txs nodes).step us c setOfAttempts m =
          some moved := hnamed.exists_step m
      by_contra hnone
      exact (Pc.step_move hstep).call_of_probing
        ((h moved hstep).1 node tx txs nodes rfl (Option.not_isSome_iff_eq_none.mp hnone)).1
    · intro moved hstep
      have hmove := Pc.step_move hstep
      have hnamed' := hnamed.move hmove
      obtain ⟨-, hinterrupt, hlater⟩ := h moved hstep
      refine ⟨fun call hcall hfailed m' hm' => ?_, ih hnamed' hlater⟩
      obtain ⟨moved', hstep'⟩ : ∃ moved', moved.pc.step us c setOfAttempts m' = some moved' :=
        hnamed'.exists_step m'
      have hcall' : moved.call = some call := hcall
      rw [hcall'] at hmove
      -- the call failed, so `probe` is called once more
      obtain ⟨node, tx, txs, nodes, ⟨hok, -⟩ | ⟨-, -, hpc⟩⟩ := hmove.of_call
      · rw [hfailed] at hok
        cases hok
      · have hmove' := Pc.step_move hstep'
        rw [hpc] at hmove'
        by_contra hrunning
        exact hmove'.call_of_probing
          (hinterrupt (by rw [hcall']; simp) m' hm' (Nat.pos_of_ne_zero hrunning) moved' hstep')

theorem Pc.RetriesClear.leavesRetry {ms : List (Moment E)} {pc : Pc}
    (h : pc.RetriesClear us c setOfAttempts ms) : pc.LeavesRetry us c setOfAttempts ms := by
  induction ms generalizing pc with
  | nil => trivial
  | cons m ms ih =>
    intro moved hstep
    obtain ⟨hroute, hsteps⟩ := h
    obtain ⟨hclear, hlater⟩ := hsteps moved hstep
    refine ⟨fun node tx txs nodes hpc hnone => ?_, fun hcalled m' hm' hrunning moved' hstep' => ?_,
      ih hlater⟩
    · have hsome := hroute node tx txs nodes hpc
      rw [hnone] at hsome
      cases hsome
    · obtain ⟨call, hcall⟩ := Option.ne_none_iff_exists'.mp hcalled
      have hmove := Pc.step_move hstep
      rw [hcall] at hmove
      obtain ⟨node, tx, txs, nodes, ⟨-, hpc⟩ | ⟨hfailed, -, -⟩⟩ := hmove.of_call
      · -- the call succeeded: the next transaction is taken up first
        have hmove' := Pc.step_move hstep'
        rw [hpc] at hmove'
        exact (hmove'.not_calling hrunning id).1
      · have := hclear call hcall hfailed m' hm'
        omega

/-- **The retry loop is left as it should exactly in the runs where there is a route to the target
whenever `probe` comes to be called, and no call that failed is followed by an interrupt.**  For
every campaign, every attempt set and every sequence of what the loops find, with a count of
interrupts that never falls. -/
theorem retry_left_iff (us : PublicKey E) (c : Campaign) (setOfAttempts : Text → Option Verdict)
    (ms : List (Moment E)) (hmono : (ms.map Moment.running).Pairwise (· ≤ ·)) :
    ((Pc.nextNode c.nodes).LeavesRetry us c setOfAttempts ms ∧
      ((Pc.nextNode c.nodes).interruptedCalls us c setOfAttempts ms).length ≤ 1) ↔
    (Pc.nextNode c.nodes).RetriesClear us c setOfAttempts ms := by
  constructor
  · rintro ⟨hleaves, -⟩
    exact hleaves.retriesClear (Pc.named_nextNode _)
  · intro hclear
    exact ⟨hclear.leavesRetry, hclear.interruptedCalls_le hmono⟩

/-! ## The guess as the target -/

/-- As long as every node can be reached and nobody interrupts, nothing is amiss. -/
theorem Pc.RetriesClear.of_forall {ms : List (Moment E)} {pc : Pc} (hnamed : pc.Named E)
    (h : ∀ m ∈ ms, m.running = 0 ∧ ∀ node, (PublicKey.fromText E node).isSome →
      (findRoutes m.router node []).isSome) : pc.RetriesClear us c setOfAttempts ms := by
  induction ms generalizing pc with
  | nil => trivial
  | cons m ms ih =>
    constructor
    · rintro node tx txs nodes rfl
      exact (h m List.mem_cons_self).2 node (hnamed node rfl)
    · intro moved hstep
      have hnamed' := hnamed.move (Pc.step_move hstep)
      refine ⟨fun _ _ _ m' hm' => ?_, ih hnamed' fun m' hm' => h m' (List.mem_cons_of_mem _ hm')⟩
      exact (h m' (List.mem_cons_of_mem _ (List.mem_of_mem_head? hm'))).1

/-- Where `probe` fails it is called again, over and over. -/
theorem Pc.run_retry {m : Moment E} {node : Text} {tx : Transaction} {txs : List Transaction}
    {nodes : List Text} {pending : PaymentInfoStorage} {e : ProbeError}
    (hprobe : m.probe us node tx.scid = some (pending, .error e)) (n : Nat) :
    (Pc.probing node tx txs nodes).run us c setOfAttempts (List.replicate n m) =
        some (.probing node tx txs nodes, List.replicate n ⟨node, tx.scid, false⟩) ∧
      (0 < m.running →
        (Pc.probing node tx txs nodes).interruptedCalls us c setOfAttempts (List.replicate n m) =
          List.replicate n ⟨node, tx.scid, false⟩) := by
  have hstep : (Pc.probing node tx txs nodes).step us c setOfAttempts m =
      some ⟨.probing node tx txs nodes, pending, some ⟨node, tx.scid, false⟩⟩ := by
    rw [Moment.probe] at hprobe
    rw [Pc.step, hprobe]
  induction n with
  | zero => exact ⟨rfl, fun _ => rfl⟩
  | succ n ih =>
    obtain ⟨hrun, hcalls⟩ := ih
    rw [List.replicate_succ]
    constructor
    · rw [Pc.run, hstep, Option.bind_some, hrun]
      rfl
    · intro hrunning
      rw [Pc.interruptedCalls_cons hstep, if_pos hrunning, hcalls hrunning]
      rfl

/-- Up to the first call of `probe`, and then one call after the other. -/
theorem Pc.run_stuck {m m' : Moment E} {node : Text} {tx : Transaction} {txs : List Transaction}
    {pending : PaymentInfoStorage} {route : Route E} {e : ProbeError}
    (hsorted : c.sortedTxs = tx :: txs) (hrunning : m.running = 0)
    (hpending : m.pendingPayments.keys.length ≤ 30)
    (hroute : findRoutes m.router node [] = some route)
    (hskips : c.skips setOfAttempts node tx = false)
    (hprobe : m'.probe us node tx.scid = some (pending, .error e)) (nodes : List Text) (n : Nat) :
    (Pc.nextNode (node :: nodes)).run us c setOfAttempts (m :: m :: m :: m :: List.replicate n m') =
        some (.probing node tx txs nodes, List.replicate n ⟨node, tx.scid, false⟩) ∧
      (0 < m'.running → (Pc.nextNode (node :: nodes)).interruptedCalls us c setOfAttempts
        (m :: m :: m :: m :: List.replicate n m') = List.replicate n ⟨node, tx.scid, false⟩) := by
  have hnode : (Pc.nextNode (node :: nodes)).step us c setOfAttempts m =
      some (m.to (.nextTx node (tx :: txs) nodes)) := by
    rw [Pc.step, hroute, hsorted]
  obtain ⟨htake, hthrottle, hsignal⟩ := Pc.steps_taken hrunning hpending hskips txs nodes
  constructor
  · rw [Pc.run_to hnode, Pc.run_to htake, Pc.run_to hthrottle, Pc.run_to hsignal]
    exact (Pc.run_retry hprobe n).1
  · intro hinterrupt
    rw [Pc.interruptedCalls_to hnode, Pc.interruptedCalls_to htake,
      Pc.interruptedCalls_to hthrottle, Pc.interruptedCalls_to hsignal]
    exact (Pc.run_retry hprobe n).2 hinterrupt

/-- Our channel with node 1, and a channel of node 1 with the guessed node. -/
def guessPath : List (RouteHop sampleKeys) := [⟨firstKey, 10⟩, ⟨guessKey, 11⟩]

/-- The router has a route to every node, and refuses a hint that begins at the payee, as
`find_route` does. -/
def refusing (running : Nat) : Moment sampleKeys where
  running := running
  pendingPayments := ∅
  router payee hints :=
    if hints.any fun hint => hint.any fun hop => hop.srcNodeId = payee then none
    else some ⟨[guessPath]⟩
  sendAlongPath _ := .sent
  preimage := []
  hash := []

/-- The guessed node is to be probed itself. -/
def guessTargetCampaign : Campaign := { sampleCampaign with nodes := [guessKey.toText] }

theorem findRoutes_refusing (running : Nat) {node : Text}
    (h : (PublicKey.fromText sampleKeys node).isSome) :
    findRoutes (refusing running).router node [] = some ⟨[guessPath]⟩ := by
  obtain ⟨key, hkey⟩ := Option.isSome_iff_exists.mp h
  rw [findRoutes, hkey]
  rfl

theorem probe_refusing (running : Nat) :
    (refusing running).probe ourKey guessKey.toText sampleTx.scid = some (∅, .error .noRoute) := by
  have hroute : ∀ scid, findRoutes (refusing running).router hardcodedGuess
      (probeHint guessKey scid) = none := by
    intro scid
    rw [findRoutes, hardcodedGuess_eq, PublicKey.fromText_toText]
    simp [refusing, probeHint]
  rw [Moment.probe, HiddenLightning.probe, PublicKey.fromText_toText,
    parseUnsigned_decimal (by decide)]
  simp only [hroute]
  rfl

/-- The moments up to the first call of `probe` without an interrupt, and those of the calls. -/
def guessMoments (running n : Nat) : List (Moment sampleKeys) :=
  refusing 0 :: refusing 0 :: refusing 0 :: refusing 0 :: List.replicate n (refusing running)

theorem run_guessMoments (running n : Nat) :
    (Pc.nextNode guessTargetCampaign.nodes).run ourKey guessTargetCampaign (getAttemptsStr [])
        (guessMoments running n) =
      some (.probing guessKey.toText sampleTx [] [],
        List.replicate n ⟨guessKey.toText, sampleTx.scid, false⟩) ∧
    (0 < (refusing running).running → (Pc.nextNode guessTargetCampaign.nodes).interruptedCalls
      ourKey guessTargetCampaign (getAttemptsStr []) (guessMoments running n) =
        List.replicate n ⟨guessKey.toText, sampleTx.scid, false⟩) := by
  have hroute : findRoutes (refusing 0).router guessKey.toText [] = some ⟨[guessPath]⟩ :=
    findRoutes_refusing 0 (by rw [PublicKey.fromText_toText]; rfl)
  have hskips : guessTargetCampaign.skips (getAttemptsStr []) guessKey.toText sampleTx = false := by
    decide
  have hsorted : guessTargetCampaign.sortedTxs = [sampleTx] := List.mergeSort_singleton _
  exact Pc.run_stuck hsorted rfl (by decide) hroute hskips (probe_refusing running) [] n

/-- A run up to a call of `probe` is not as it should be if there is no route to the target then,
whatever `probe` finds. -/
theorem Pc.not_leavesRetry {m m' : Moment E} {node : Text} {tx : Transaction}
    {txs : List Transaction} {route : Route E} (hsorted : c.sortedTxs = tx :: txs)
    (hrunning : m.running = 0) (hpending : m.pendingPayments.keys.length ≤ 30)
    (hroute : findRoutes m.router node [] = some route)
    (hskips : c.skips setOfAttempts node tx = false)
    (hnone : findRoutes m'.router node [] = none) (nodes : List Text) (ms : List (Moment E)) :
    ¬ (Pc.nextNode (node :: nodes)).LeavesRetry us c setOfAttempts
      (m :: m :: m :: m :: m' :: ms) := by
  intro hleaves
  have hnode : (Pc.nextNode (node :: nodes)).step us c setOfAttempts m =
      some (m.to (.nextTx node (tx :: txs) nodes)) := by
    rw [Pc.step, hroute, hsorted]
  obtain ⟨htake, hthrottle, hsignal⟩ :
      (Pc.nextTx node (tx :: txs) nodes).step us c setOfAttempts m = _ ∧ _ :=
    Pc.steps_taken hrunning hpending hskips txs nodes
  obtain ⟨-, -, hleaves⟩ := hleaves _ hnode
  obtain ⟨-, -, hleaves⟩ := hleaves _ htake
  obtain ⟨-, -, hleaves⟩ := hleaves _ hthrottle
  obtain ⟨-, -, hleaves⟩ := hleaves _ hsignal
  have hnamed : (Pc.probing node tx txs nodes).Named E := by
    rintro _ ⟨⟩
    exact isSome_fromText_of_findRoutes (by rw [hroute]; rfl)
  obtain ⟨hclear, -⟩ := hleaves.retriesClear hnamed
  have hsome := hclear node tx txs nodes rfl
  rw [hnone] at hsome
  cases hsome

/-- There is no route any more to the node that is probed, but one to the guess over a channel of
another. -/
def detour : Moment sampleKeys :=
  { sampleMoment with
    router := fun _ hints => if hints.isEmpty then none else some ⟨[samplePath]⟩ }

theorem probe_detour : ∃ pending, detour.probe ourKey firstKey.toText sampleTx.scid =
    some (pending, .ok ⟨[samplePath]⟩) := by
  have hroute : ∀ scid, findRoutes detour.router hardcodedGuess (probeHint firstKey scid) =
      some ⟨[samplePath]⟩ := by
    intro scid
    rw [findRoutes, hardcodedGuess_eq, PublicKey.fromText_toText]
    rfl
  have hsend : sendPayment ourKey detour.sendAlongPath none ⟨[samplePath]⟩ = .ok () := by
    simp [sendPayment, checkPath, samplePath, detour, sampleMoment, firstKey_ne_ourKey]
  rw [Moment.probe, HiddenLightning.probe, PublicKey.fromText_toText,
    parseUnsigned_decimal (by decide)]
  simp only [hroute, hsend]
  exact ⟨_, rfl⟩

/-- Two calls that failed, and nobody interrupts. -/
theorem retry_left_uninterrupted :
    (Pc.nextNode guessTargetCampaign.nodes).LeavesRetry ourKey guessTargetCampaign
        (getAttemptsStr []) (guessMoments 0 2) ∧
      ((Pc.nextNode guessTargetCampaign.nodes).interruptedCalls ourKey guessTargetCampaign
        (getAttemptsStr []) (guessMoments 0 2)).length ≤ 1 := by
  refine (retry_left_iff ourKey guessTargetCampaign (getAttemptsStr []) (guessMoments 0 2)
    (by decide)).mpr (Pc.RetriesClear.of_forall (Pc.named_nextNode _) fun m hm => ?_)
  have hm' : m = refusing 0 := by
    simpa [guessMoments] using hm
  rw [hm']
  refine ⟨rfl, fun node hnode => ?_⟩
  rw [findRoutes_refusing 0 hnode]
  rfl

/-- Every call fails, and after an interrupt there is still one call after the other.  And a
target that cannot be reached any more is probed, and `probe` returns `Ok`. -/
theorem retried_for_ever :
    (∀ n, (Pc.nextNode guessTargetCampaign.nodes).run ourKey guessTargetCampaign
        (getAttemptsStr []) (guessMoments 1 n) =
      some (.probing guessKey.toText sampleTx [] [],
        List.replicate n ⟨guessKey.toText, sampleTx.scid, false⟩) ∧
      ((Pc.nextNode guessTargetCampaign.nodes).interruptedCalls ourKey guessTargetCampaign
        (getAttemptsStr []) (guessMoments 1 n)).length = n) ∧
    ¬ (Pc.nextNode guessTargetCampaign.nodes).LeavesRetry ourKey guessTargetCampaign
      (getAttemptsStr []) (guessMoments 1 2) ∧
    (∃ pending, detour.probe ourKey firstKey.toText sampleTx.scid =
      some (pending, .ok ⟨[samplePath]⟩)) ∧
    ¬ (Pc.nextNode sampleCampaign.nodes).LeavesRetry ourKey sampleCampaign (getAttemptsStr [])
      [sampleMoment, sampleMoment, sampleMoment, sampleMoment, detour] := by
  have hlen : ∀ n, ((Pc.nextNode guessTargetCampaign.nodes).interruptedCalls ourKey
      guessTargetCampaign (getAttemptsStr []) (guessMoments 1 n)).length = n := by
    intro n
    rw [(run_guessMoments 1 n).2 Nat.one_pos, List.length_replicate]
  refine ⟨fun n => ⟨(run_guessMoments 1 n).1, hlen n⟩, fun hleaves => ?_, ?_, ?_⟩
  · have hle := (hleaves.retriesClear (Pc.named_nextNode _)).interruptedCalls_le (by decide)
    rw [hlen 2] at hle
    omega
  · exact probe_detour
  · have hroute : findRoutes sampleMoment.router firstKey.toText [] = some ⟨[samplePath]⟩ := by
      rw [findRoutes, PublicKey.fromText_toText]
      rfl
    have hnone : findRoutes detour.router firstKey.toText [] = none := by
      rw [findRoutes, PublicKey.fromText_toText]
      rfl
    have hsorted : sampleCampaign.sortedTxs = [sampleTx] := List.mergeSort_singleton _
    exact Pc.not_leavesRetry hsorted rfl (by decide) hroute skips_sampleTx hnone [] []

end HiddenLightning
