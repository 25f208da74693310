import HiddenLightning.Resume

/-! # What a campaign covers

A run of `probeall` that nobody interrupts, and whose probes all get through in the end,
probes what it should: node by node, for the nodes a route was found to, every output that
is eligible, newest block first (`campaign_probes_eligible`).  For that the probes are
written down as they are sent (`Pc.probed`), and the nodes as the loops ask for a route to
them (`Pc.asked`).

Two things follow from it that are less than one would like.  A pair is probed as often as
it is listed, since what is attempted during the run is not looked at
(`probed_at_most_listed`).  And the filter is weaker than the notes have it, which ask for
more than 100000 satoshis (`best_guess_iff`).
-/
namespace HiddenLightning
open Numerals

variable {E : Secp256k1} {us : PublicKey E} {c : Campaign}
  {setOfAttempts : Text → Option Verdict}

/-! ## What is seen of a run -/

section collect
variable {α : Type}

/-- What an observer who sees the point, what the loops find there and the call of `probe`
writes down in the course of a run. -/
def Pc.collect (us : PublicKey E) (c : Campaign) (setOfAttempts : Text → Option Verdict)
    (look : Pc → Moment E → Option Call → List α) : List (Moment E) → Pc → List α
  | [], _ => []
  | m :: ms, pc =>
    match pc.step us c setOfAttempts m with
    | none => []
    | some moved => look pc m moved.call ++ moved.pc.collect us c setOfAttempts look ms

theorem Pc.collect_cons (look : Pc → Moment E → Option Call → List α) {m : Moment E}
    {ms : List (Moment E)} {pc : Pc} {moved : Moved}
    (h : pc.step us c setOfAttempts m = some moved) :
    pc.collect us c setOfAttempts look (m :: ms) =
      look pc m moved.call ++ moved.pc.collect us c setOfAttempts look ms := by
  rw [Pc.collect, h]

end collect

/-- The route that is asked for, and whether there is one. -/
def Pc.asks (pc : Pc) (m : Moment E) (_ : Option Call) : List (Text × Bool) :=
  match pc with
  | .nextNode (node :: _) => [(node, (findRoutes m.router node []).isSome)]
  | _ => []

/-- The probe that is sent. -/
def Pc.sends (pc : Pc) (_ : Moment E) (call : Option Call) : List (Text × Transaction) :=
  match pc with
  | .probing node tx _ _ => if call.any Call.ok then [(node, tx)] else []
  | _ => []

/-- The nodes that were asked for, in order. -/
def Pc.asked (us : PublicKey E) (c : Campaign) (setOfAttempts : Text → Option Verdict)
    (ms : List (Moment E)) (pc : Pc) : List (Text × Bool) :=
  pc.collect us c setOfAttempts Pc.asks ms

/-- The probes that were sent, in order. -/
def Pc.probed (us : PublicKey E) (c : Campaign) (setOfAttempts : Text → Option Verdict)
    (ms : List (Moment E)) (pc : Pc) : List (Text × Transaction) :=
  pc.collect us c setOfAttempts Pc.sends ms

theorem Pc.Move.sends_eq {m : Moment E} {pc pc' : Pc} {call : Option Call}
    (h : Move c setOfAttempts m pc pc' call) :
    sentPairs call.toList = (pc.sends m call).map fun p => (p.1, p.2.scid) := by
  cases h <;> rfl

/-- The calls that returned `Ok` are those of the probes sent. -/
theorem Pc.sentPairs_run {ms : List (Moment E)} {pc pc' : Pc} {calls : List Call}
    (h : pc.run us c setOfAttempts ms = some (pc', calls)) :
    sentPairs calls = (pc.probed us c setOfAttempts ms).map fun p => (p.1, p.2.scid) := by
  induction ms generalizing pc calls with
  | nil =>
    cases h
    rfl
  | cons m ms ih =>
    obtain ⟨moved, rest, hstep, hrest, rfl⟩ := Pc.run_cons h
    have happend : sentPairs (moved.call.toList ++ rest) =
        sentPairs moved.call.toList ++ sentPairs rest := by
      simp [sentPairs, List.filter_append]
    rw [happend, (Pc.step_move hstep).sends_eq, ih hrest, ← List.map_append, Pc.probed, Pc.probed,
      Pc.collect_cons _ hstep]

/-! ## What is eligible -/

/-- The pair is to be probed. -/
def Campaign.Eligible (c : Campaign) (setOfAttempts : Text → Option Verdict) (node : Text)
    (tx : Transaction) : Prop :=
  (c.probetype = "assumptions".toList → tx.amount % 10000 = 0 ∧ tx.transactionIndex ≤ 1) ∧
    tx.scid ∉ c.shortChannelIds ∧ setOfAttempts (attemptKey node tx.scid) = none

instance (c : Campaign) (setOfAttempts : Text → Option Verdict) (node : Text) (tx : Transaction) :
    Decidable (c.Eligible setOfAttempts node tx) :=
  inferInstanceAs (Decidable (_ ∧ _ ∧ _))

/-- **What is not passed over is eligible.** -/
theorem Campaign.eligible_iff {node : Text} {tx : Transaction} :
    c.Eligible setOfAttempts node tx ↔ c.skips setOfAttempts node tx = false := by
  simp only [Eligible, skips, decide_eq_false_iff_not, not_or, not_and, ne_eq, not_not,
    UInt64.not_lt, Option.not_isSome_iff_eq_none]

/-- The eligible ones of some pairs. -/
def Campaign.eligible (c : Campaign) (setOfAttempts : Text → Option Verdict)
    (rounds : List (Text × Transaction)) : List (Text × Transaction) :=
  rounds.filter fun p => c.Eligible setOfAttempts p.1 p.2

theorem Campaign.eligible_cons (node : Text) (tx : Transaction)
    (rounds : List (Text × Transaction)) :
    c.eligible setOfAttempts ((node, tx) :: rounds) =
      if c.skips setOfAttempts node tx then c.eligible setOfAttempts rounds
      else (node, tx) :: c.eligible setOfAttempts rounds := by
  by_cases h : c.skips setOfAttempts node tx = true
  · have hnot : ¬ c.Eligible setOfAttempts node tx := by
      rw [Campaign.eligible_iff, h]
      exact Bool.noConfusion
    rw [if_pos h, Campaign.eligible, List.filter_cons_of_neg (by simpa using hnot)]
    rfl
  · have hyes : c.Eligible setOfAttempts node tx :=
      Campaign.eligible_iff.mpr (Bool.eq_false_iff.mpr h)
    rw [if_neg h, Campaign.eligible, List.filter_cons_of_pos (by simpa using hyes)]
    rfl

/-- What is eligible at one node. -/
def Campaign.eligibleAt (c : Campaign) (setOfAttempts : Text → Option Verdict)
    (order : List Transaction) (node : Text) : List (Text × Transaction) :=
  c.eligible setOfAttempts (order.map fun tx => (node, tx))

/-- What is eligible at the nodes a route was found to. -/
def Campaign.covered (c : Campaign) (setOfAttempts : Text → Option Verdict)
    (order : List Transaction) (asked : List (Text × Bool)) : List (Text × Transaction) :=
  (asked.filter Prod.snd).flatMap fun p => c.eligibleAt setOfAttempts order p.1

/-! ## Nothing is skipped, added or reordered -/

/-- What is left of the round of the node whose turn it is. -/
def Pc.round : Pc → List (Text × Transaction)
  | .nextTx node txs _ => txs.map fun tx => (node, tx)
  | .throttle node tx txs _ => (node, tx) :: txs.map fun tx => (node, tx)
  | .signal node tx txs _ => (node, tx) :: txs.map fun tx => (node, tx)
  | .probing node tx txs _ => (node, tx) :: txs.map fun tx => (node, tx)
  | _ => []

/-- The nodes whose turn is still to come. -/
def Pc.nodesLeft : Pc → List Text
  | .nextNode nodes => nodes
  | .nextTx _ _ nodes => nodes
  | .throttle _ _ _ nodes => nodes
  | .signal _ _ _ nodes => nodes
  | .probing _ _ _ nodes => nodes
  | .finished => []

/-- A step takes a node off the list exactly when it asks for a route to it. -/
theorem Pc.Move.nodesLeft_eq {m : Moment E} {pc pc' : Pc} {call : Option Call}
    (h : Move c setOfAttempts m pc pc' call) :
    (pc.asks m call).map Prod.fst ++ pc'.nodesLeft = pc.nodesLeft := by
  cases h <;> rfl

/-- A step that sees no interrupt sends what it takes off the round, and takes up the round of a
node it has found a route to. -/
theorem Pc.Move.round_eq {m : Moment E} {pc pc' : Pc} {call : Option Call}
    (hmove : Move c setOfAttempts m pc pc' call) (h : pc.Within c setOfAttempts)
    (hrunning : m.running = 0) :
    pc.sends m call ++ c.eligible setOfAttempts pc'.round =
      c.eligible setOfAttempts pc.round ++
        c.covered setOfAttempts c.sortedTxs (pc.asks m call) := by
  cases hmove with
  | finish | stay | noTx | take | wait | go | begin | retry => exact (List.append_nil _).symm
  | route node nodes hroute =>
    show c.eligible _ _ = c.covered _ _ [(node, (findRoutes m.router node []).isSome)]
    rw [hroute]
    exact (List.append_nil _).symm
  | noRoute node nodes hroute =>
    show [] = c.covered _ _ [(node, (findRoutes m.router node []).isSome)]
    rw [hroute]
    rfl
  | interrupted node tx txs nodes hinterrupt => omega
  | skip node tx txs nodes _ hskips =>
    show c.eligible _ _ = c.eligible _ (_ :: _) ++ []
    rw [Campaign.eligible_cons, if_pos hskips, List.append_nil]
    rfl
  | sent node tx txs nodes =>
    have hskips := h.fresh node tx txs nodes rfl
    show (node, tx) :: c.eligible _ _ = c.eligible _ (_ :: _) ++ []
    rw [Campaign.eligible_cons, hskips, if_neg Bool.false_ne_true, List.append_nil]
    rfl

theorem Campaign.covered_append (order : List Transaction) (asked asked' : List (Text × Bool)) :
    c.covered setOfAttempts order (asked ++ asked') =
      c.covered setOfAttempts order asked ++ c.covered setOfAttempts order asked' := by
  simp [Campaign.covered, List.filter_append]

/-- **A run that sees no interrupt** has asked for the nodes in turn, and has sent what is
eligible at the nodes found, up to what is left of the present round. -/
theorem Pc.Within.run_covers {ms : List (Moment E)} {pc pc' : Pc} {calls : List Call}
    (h : pc.Within c setOfAttempts) (hrun : pc.run us c setOfAttempts ms = some (pc', calls))
    (hrunning : ∀ m ∈ ms, m.running = 0) :
    (pc.asked us c setOfAttempts ms).map Prod.fst ++ pc'.nodesLeft = pc.nodesLeft ∧
      pc.probed us c setOfAttempts ms ++ c.eligible setOfAttempts pc'.round =
        c.eligible setOfAttempts pc.round ++
          c.covered setOfAttempts c.sortedTxs (pc.asked us c setOfAttempts ms) := by
  induction ms generalizing pc calls with
  | nil =>
    cases hrun
    exact ⟨rfl, (List.append_nil _).symm⟩
  | cons m ms ih =>
    obtain ⟨moved, rest, hstep, hrest, -⟩ := Pc.run_cons hrun
    have hmove := Pc.step_move hstep
    obtain ⟨hnodes, hround⟩ := ih (h.move hmove).1 hrest
      fun m' hm' => hrunning m' (List.mem_cons_of_mem _ hm')
    have hasked : pc.asked us c setOfAttempts (m :: ms) =
        pc.asks m moved.call ++ moved.pc.asked us c setOfAttempts ms := Pc.collect_cons _ hstep
    have hprobed : pc.probed us c setOfAttempts (m :: ms) =
        pc.sends m moved.call ++ moved.pc.probed us c setOfAttempts ms := Pc.collect_cons _ hstep
    rw [hasked, hprobed]
    constructor
    · rw [List.map_append, List.append_assoc, hnodes, hmove.nodesLeft_eq]
    · rw [List.append_assoc, hround, ← List.append_assoc,
        hmove.round_eq h (hrunning m List.mem_cons_self), List.append_assoc,
        Campaign.covered_append]

/-- The same transactions by falling block height, those of one block in the order they had. -/
structure NewestFirst (txs order : List Transaction) : Prop where
  perm : order.Perm txs
  falling : order.Pairwise fun a b => b.blockHeight ≤ a.blockHeight
  stable : ∀ height, order.filter (fun tx => tx.blockHeight = height) =
    txs.filter fun tx => tx.blockHeight = height

theorem Campaign.newestFirst_sortedTxs (c : Campaign) : NewestFirst c.txs c.sortedTxs := by
  have htrans : ∀ a b d : Transaction, decide (b.blockHeight ≤ a.blockHeight) = true →
      decide (d.blockHeight ≤ b.blockHeight) = true →
      decide (d.blockHeight ≤ a.blockHeight) = true := by
    intro a b d hab hbd
    exact decide_eq_true (UInt64.le_trans (of_decide_eq_true hbd) (of_decide_eq_true hab))
  have htotal : ∀ a b : Transaction, (decide (b.blockHeight ≤ a.blockHeight) ||
      decide (a.blockHeight ≤ b.blockHeight)) = true := by
    intro a b
    simpa using UInt64.le_total b.blockHeight a.blockHeight
  have hperm : c.sortedTxs.Perm c.txs := List.mergeSort_perm _ _
  refine ⟨hperm, ?_, fun height => ?_⟩
  · have hsorted := List.pairwise_mergeSort htrans htotal c.txs
    exact hsorted.imp fun h => of_decide_eq_true h
  · -- the transactions of one block are in order as they stand, so sorting leaves them so
    have hblock : (c.txs.filter fun tx => tx.blockHeight = height).Pairwise
        fun a b => decide (b.blockHeight ≤ a.blockHeight) = true := by
      refine List.pairwise_of_forall_mem_list fun a ha b hb => ?_
      rw [List.mem_filter, decide_eq_true_eq] at ha hb
      rw [ha.2, hb.2]
      exact decide_eq_true (UInt64.le_refl height)
    have hsub := List.sublist_mergeSort htrans htotal hblock List.filter_sublist
    have hsub' := hsub.filter fun tx => tx.blockHeight = height
    rw [List.filter_filter] at hsub'
    simp only [Bool.and_self] at hsub'
    exact (hsub'.eq_of_length_le (hperm.filter _).length_eq.le).symm

/-! ## The campaign comes to its end -/

/-- The steps that lie ahead at the least, if none has to be made again. -/
def Pc.work (c : Campaign) : Pc → Nat
  | .nextNode nodes => 1 + nodes.length * (4 * c.txs.length + 2)
  | .nextTx _ txs nodes => 4 * txs.length + 2 + nodes.length * (4 * c.txs.length + 2)
  | .throttle _ _ txs nodes => 4 * txs.length + 5 + nodes.length * (4 * c.txs.length + 2)
  | .signal _ _ txs nodes => 4 * txs.length + 4 + nodes.length * (4 * c.txs.length + 2)
  | .probing _ _ txs nodes => 4 * txs.length + 3 + nodes.length * (4 * c.txs.length + 2)
  | .finished => 0

/-- A step gets on with the work, or it waits, or the probe is to be sent again. -/
theorem Pc.Move.work_lt {m : Moment E} {pc pc' : Pc} {call : Option Call}
    (h : Move c setOfAttempts m pc pc' call) : pc' = pc ∨ pc'.work c < pc.work c := by
  cases h with
  | wait | retry | stay => exact Or.inl rfl
  | route node nodes _ =>
    right
    have hlen : c.sortedTxs.length = c.txs.length := List.length_mergeSort _
    simp only [Pc.work, hlen, List.length_cons, Nat.add_mul, Nat.one_mul]
    omega
  | noRoute node nodes _ =>
    right
    simp only [Pc.work, List.length_cons, Nat.add_mul, Nat.one_mul]
    omega
  | finish | noTx | take | go | interrupted | skip | begin | sent =>
    right
    simp only [Pc.work, List.length_cons]
    omega

/-- The run over the first moments of an endless sequence. -/
def Campaign.reached (us : PublicKey E) (c : Campaign) (setOfAttempts : Text → Option Verdict)
    (ms : Nat → Moment E) (k : Nat) : Option (Pc × List Call) :=
  (Pc.nextNode c.nodes).run us c setOfAttempts ((List.range k).map ms)

/-- One moment more. -/
theorem Campaign.reached_succ {ms : Nat → Moment E} {k : Nat} {pc : Pc} {calls : List Call}
    (h : c.reached us setOfAttempts ms k = some (pc, calls)) :
    ∃ moved, pc.step us c setOfAttempts (ms k) = some moved ∧
      c.reached us setOfAttempts ms (k + 1) = some (moved.pc, calls ++ moved.call.toList) := by
  obtain ⟨⟨pc', calls'⟩, hnext⟩ : ∃ out, c.reached us setOfAttempts ms (k + 1) = some out :=
    (Pc.named_nextNode _).exists_run _
  have hrun := hnext
  rw [Campaign.reached, List.range_succ, List.map_append, Pc.run_append] at hrun
  rw [Campaign.reached] at h
  rw [h, Option.bind_some] at hrun
  obtain ⟨⟨pc'', rest⟩, hlast, heq⟩ := Option.map_eq_some_iff.mp hrun
  obtain ⟨moved, rest', hstep, hnil, rfl⟩ := Pc.run_cons hlast
  cases hnil
  cases heq
  rw [List.append_nil] at hnext
  exact ⟨moved, hstep, hnext⟩

/-- What `probe` meets when it is called for the pair. -/
def Moment.probe (us : PublicKey E) (m : Moment E) (node : Text) (scid : UInt64) :
    Option (PaymentInfoStorage × Except ProbeError (Route E)) :=
  HiddenLightning.probe us m.router m.sendAlongPath m.preimage m.hash node (decimal scid.toNat)
    hardcodedGuess m.pendingPayments

/-- At a later moment the work has got less, or the run is where it was. -/
theorem Campaign.reached_or_waits {ms : Nat → Moment E} {k : Nat} {pc : Pc} {calls : List Call}
    (h : c.reached us setOfAttempts ms k = some (pc, calls)) (d : Nat) :
    (∃ i pc' calls', k ≤ i ∧ c.reached us setOfAttempts ms i = some (pc', calls') ∧
      pc'.work c < pc.work c) ∨
    ∃ calls', c.reached us setOfAttempts ms (k + d) = some (pc, calls') := by
  induction d with
  | zero => exact Or.inr ⟨calls, h⟩
  | succ d ih =>
    rcases ih with hless | ⟨calls', hsame⟩
    · exact Or.inl hless
    · obtain ⟨moved, hstep, hnext⟩ := Campaign.reached_succ hsame
      rcases (Pc.step_move hstep).work_lt with heq | hlt
      · rw [heq] at hnext
        exact Or.inr ⟨_, hnext⟩
      · exact Or.inl ⟨k + d + 1, _, _, by omega, hnext, hlt⟩

section fair
variable {ms : Nat → Moment E}

/-- Every probe that is begun gets through in the end. -/
def Campaign.EventuallyOk (us : PublicKey E) (c : Campaign)
    (setOfAttempts : Text → Option Verdict) (ms : Nat → Moment E) : Prop :=
  ∀ k node tx txs nodes calls,
    c.reached us setOfAttempts ms k = some (.probing node tx txs nodes, calls) →
    ∃ j, k ≤ j ∧ ∃ pending route, (ms j).probe us node tx.scid = some (pending, .ok route)

variable (hok : c.EventuallyOk us setOfAttempts ms)
  (hclear : ∀ n, ∃ k, n ≤ k ∧ (ms k).pendingPayments.keys.length ≤ 30)

include hok hclear in
/-- At some later moment the point the run is at is left. -/
theorem Campaign.exists_leaves {k : Nat} {pc : Pc} {calls : List Call}
    (h : c.reached us setOfAttempts ms k = some (pc, calls)) (hpc : pc ≠ .finished) :
    ∃ j, k ≤ j ∧ ∀ moved, pc.step us c setOfAttempts (ms j) = some moved → moved.pc ≠ pc := by
  cases pc with
  | finished => exact absurd rfl hpc
  | nextNode nodes | nextTx node txs nodes | signal node tx txs nodes =>
    refine ⟨k, le_rfl, fun moved hstep heq => ?_⟩
    have hmove := Pc.step_move hstep
    generalize moved.pc = pc', moved.call = call at hmove heq
    cases hmove <;> simp at heq
  | throttle node tx txs nodes =>
    obtain ⟨j, hkj, hshort⟩ := hclear k
    refine ⟨j, hkj, fun moved hstep heq => ?_⟩
    have hmove := Pc.step_move hstep
    generalize moved.pc = pc', moved.call = call at hmove heq
    cases hmove with
    | wait _ _ _ _ _ hlong => omega
    | go => cases heq
  | probing node tx txs nodes =>
    obtain ⟨j, hkj, pending, route, hprobe⟩ := hok k node tx txs nodes calls h
    refine ⟨j, hkj, fun moved hstep heq => ?_⟩
    rw [Moment.probe] at hprobe
    rw [Pc.step, hprobe] at hstep
    cases hstep
    cases heq

include hok hclear in
theorem Campaign.exists_finished {k : Nat} {pc : Pc} {calls : List Call}
    (h : c.reached us setOfAttempts ms k = some (pc, calls)) :
    ∃ n calls', c.reached us setOfAttempts ms n = some (.finished, calls') := by
  -- by induction on the work ahead
  induction hwork : pc.work c using Nat.strong_induction_on generalizing k pc calls with
  | _ w ih =>
    by_cases hpc : pc = .finished
    · exact ⟨k, calls, hpc ▸ h⟩
    · obtain ⟨j, hkj, hleaves⟩ := Campaign.exists_leaves hok hclear h hpc
      obtain ⟨d, rfl⟩ := Nat.exists_eq_add_of_le hkj
      have hless : ∃ i pc' calls', c.reached us setOfAttempts ms i = some (pc', calls') ∧
          pc'.work c < pc.work c := by
        rcases Campaign.reached_or_waits h d with ⟨i, pc', calls', -, hi, hlt⟩ | ⟨calls', hsame⟩
        · exact ⟨i, pc', calls', hi, hlt⟩
        · obtain ⟨moved, hstep, hnext⟩ := Campaign.reached_succ hsame
          rcases (Pc.step_move hstep).work_lt with heq | hlt
          · exact absurd heq (hleaves moved hstep)
          · exact ⟨_, _, _, hnext, hlt⟩
      obtain ⟨i, pc', calls', hi, hlt⟩ := hless
      exact ih _ (hwork ▸ hlt) hi rfl

end fair

/-- Once finished, a campaign stays so. -/
theorem Campaign.reached_finished {ms : Nat → Moment E} {n : Nat} {calls : List Call}
    (h : c.reached us setOfAttempts ms n = some (.finished, calls)) {k : Nat} (hk : n ≤ k) :
    c.reached us setOfAttempts ms k = some (.finished, calls) := by
  obtain ⟨d, rfl⟩ := Nat.exists_eq_add_of_le hk
  clear hk
  induction d with
  | zero => exact h
  | succ d ih =>
    obtain ⟨moved, hstep, hnext⟩ := Campaign.reached_succ ih
    cases hstep
    rw [← Nat.add_assoc]
    simpa [Moment.to] using hnext

/-- The nodes asked for in the first moments of an endless sequence. -/
def Campaign.askedBy (us : PublicKey E) (c : Campaign) (setOfAttempts : Text → Option Verdict)
    (ms : Nat → Moment E) (k : Nat) : List (Text × Bool) :=
  (Pc.nextNode c.nodes).asked us c setOfAttempts ((List.range k).map ms)

/-- **A campaign probes exactly the eligible pairs, newest first.**  For every campaign, every
attempt set and every course of events without an interrupt in which every probe gets through
in the end: after any number of steps the nodes asked for are the first of the list, and the
probes sent are the first of what is eligible at those of them a route was found to, node by
node; when the run is over these are all nodes and all that is eligible.  And the run does come
to its end, unless there are more than 30 pending payments forever. -/
theorem campaign_probes_eligible (us : PublicKey E) (c : Campaign)
    (setOfAttempts : Text → Option Verdict) (ms : Nat → Moment E)
    (hrunning : ∀ k, (ms k).running = 0) (hok : c.EventuallyOk us setOfAttempts ms) :
    ∃ order, NewestFirst c.txs order ∧
      (∀ k, ∃ pc calls, c.reached us setOfAttempts ms k = some (pc, calls) ∧
        (c.askedBy us setOfAttempts ms k).map Prod.fst <+: c.nodes ∧
        sentPairs calls <+: (c.covered setOfAttempts order (c.askedBy us setOfAttempts ms k)).map
          (fun p => (p.1, p.2.scid)) ∧
        (pc = .finished → (c.askedBy us setOfAttempts ms k).map Prod.fst = c.nodes ∧
          sentPairs calls = (c.covered setOfAttempts order
            (c.askedBy us setOfAttempts ms k)).map fun p => (p.1, p.2.scid))) ∧
      ((∃ n calls, ∀ k, n ≤ k → c.reached us setOfAttempts ms k = some (.finished, calls)) ∨
        ∃ n, ∀ k, n ≤ k → 30 < (ms k).pendingPayments.keys.length) := by
  refine ⟨c.sortedTxs, c.newestFirst_sortedTxs, fun k => ?_, ?_⟩
  · obtain ⟨⟨pc, calls⟩, hrun⟩ : ∃ out, c.reached us setOfAttempts ms k = some out :=
      (Pc.named_nextNode _).exists_run _
    have hquiet : ∀ m ∈ (List.range k).map ms, m.running = 0 := by
      intro m hm
      obtain ⟨i, -, rfl⟩ := List.mem_map.mp hm
      exact hrunning i
    obtain ⟨hnodes, hround⟩ := (Pc.Within.start c setOfAttempts).run_covers hrun hquiet
    have hsent := Pc.sentPairs_run hrun
    refine ⟨pc, calls, hrun, ⟨pc.nodesLeft, hnodes⟩, ?_, ?_⟩
    · refine ⟨(c.eligible setOfAttempts pc.round).map fun p => (p.1, p.2.scid), ?_⟩
      rw [hsent, ← List.map_append, hround]
      rfl
    · rintro rfl
      have hall : (Pc.nextNode c.nodes).probed us c setOfAttempts ((List.range k).map ms) =
          c.covered setOfAttempts c.sortedTxs (c.askedBy us setOfAttempts ms k) :=
        (List.append_nil _).symm.trans hround
      exact ⟨(List.append_nil _).symm.trans hnodes, hsent.trans (by rw [hall])⟩
  · by_cases hclear : ∀ n, ∃ k, n ≤ k ∧ (ms k).pendingPayments.keys.length ≤ 30
    · obtain ⟨n, calls, hfinished⟩ := Campaign.exists_finished hok hclear
        (show c.reached us setOfAttempts ms 0 = some (.nextNode c.nodes, []) from rfl)
      exact Or.inl ⟨n, calls, fun k hk => Campaign.reached_finished hfinished hk⟩
    · push Not at hclear
      exact Or.inr hclear

/-! ### Two nodes -/

/-- An output of a later block, which meets the assumptions too. -/
def newerTx : Transaction where
  blockHeight := 700100
  id := []
  blockIndex := 6
  transactionIndex := 0
  amount := 30000

/-- One between them, which does not: its index is 2. -/
def changeTx : Transaction where
  blockHeight := 700050
  id := []
  blockIndex := 2
  transactionIndex := 2
  amount := 30000

/-- The three are listed, and nodes 1 and 2. -/
def wideCampaign : Campaign where
  probetype := "assumptions".toList
  nodes := [firstKey.toText, secondKey.toText]
  txs := [sampleTx, newerTx, changeTx]
  shortChannelIds := []

theorem fromText_wideCampaign {node : Text} (h : node ∈ wideCampaign.nodes) :
    ∃ key, PublicKey.fromText sampleKeys node = some key := by
  rcases List.mem_cons.mp h with rfl | h
  · exact ⟨_, PublicKey.fromText_toText firstKey⟩
  · rw [List.mem_singleton.mp h]
    exact ⟨_, PublicKey.fromText_toText secondKey⟩

theorem NewestFirst.eq_wide {order : List Transaction} (h : NewestFirst wideCampaign.txs order) :
    order = [newerTx, changeTx, sampleTx] := by
  have hsorted : [newerTx, changeTx, sampleTx].Pairwise fun a b =>
      b.blockHeight ≤ a.blockHeight := by decide
  have hperm : order.Perm [newerTx, changeTx, sampleTx] :=
    h.perm.trans (List.perm_append_comm : ([sampleTx] ++ [newerTx, changeTx]).Perm _)
  refine hperm.eq_of_pairwise (fun a b ha hb hab hba => ?_) h.falling hsorted
  -- the three heights are different
  have hheight : a.blockHeight = b.blockHeight := UInt64.le_antisymm hba hab
  have ha' := hperm.subset ha
  simp only [List.mem_cons, List.not_mem_nil, or_false] at ha' hb
  rcases ha' with rfl | rfl | rfl <;> rcases hb with rfl | rfl | rfl <;>
    first | rfl | exact absurd hheight (by decide)

theorem eventuallyOk_sampleMoment :
    wideCampaign.EventuallyOk ourKey (getAttemptsStr []) fun _ => sampleMoment := by
  intro k node tx txs nodes calls hreached
  have hwithin := (Pc.Within.start _ _).run hreached
  obtain ⟨hnode, -⟩ := mem_rounds.mp (hwithin.ahead _ List.mem_cons_self)
  obtain ⟨key, hkey⟩ := fromText_wideCampaign hnode
  obtain ⟨pending, hprobe⟩ := exists_probe_spelled hkey tx.scid
  exact ⟨k, le_rfl, pending, ⟨[samplePath]⟩, hprobe⟩

/-- Whether a route was found to a node is what the router said at the moment it was asked. -/
theorem Pc.mem_asked {ms : List (Moment E)} {pc : Pc} {node : Text} {found : Bool}
    (h : (node, found) ∈ pc.asked us c setOfAttempts ms) :
    ∃ m ∈ ms, found = (findRoutes m.router node []).isSome := by
  induction ms generalizing pc with
  | nil => cases h
  | cons m ms ih =>
    rw [Pc.asked, Pc.collect] at h
    split at h
    · cases h
    · rcases List.mem_append.mp h with hnow | hlater
      · refine ⟨m, List.mem_cons_self, ?_⟩
        unfold Pc.asks at hnow
        split at hnow
        · rw [List.mem_singleton] at hnow
          cases hnow
          rfl
        · cases hnow
      · obtain ⟨m', hm', hfound⟩ := ih hlater
        exact ⟨m', List.mem_cons_of_mem _ hm', hfound⟩

/-- Both nodes are probed for the two outputs, the newer one first, and that is all. -/
theorem campaign_probes_wide : ∃ n calls,
    wideCampaign.reached ourKey (getAttemptsStr []) (fun _ => sampleMoment) n =
      some (.finished, calls) ∧
    sentPairs calls = [(firstKey.toText, newerTx.scid), (firstKey.toText, sampleTx.scid),
      (secondKey.toText, newerTx.scid), (secondKey.toText, sampleTx.scid)] := by
  obtain ⟨order, horder, hrun, hend⟩ := campaign_probes_eligible ourKey wideCampaign
    (getAttemptsStr []) (fun _ => sampleMoment) (fun _ => rfl) eventuallyOk_sampleMoment
  obtain ⟨n, calls, hfinished⟩ := hend.resolve_right fun ⟨n, hfull⟩ =>
    absurd (hfull n le_rfl) (by decide)
  have hdone := hfinished n le_rfl
  obtain ⟨pc, calls', hreached, -, -, hall⟩ := hrun n
  rw [hdone] at hreached
  cases hreached
  obtain ⟨hasked, hsent⟩ := hall rfl
  refine ⟨n, calls, hdone, ?_⟩
  -- a route was found to both nodes
  have hfound : wideCampaign.askedBy ourKey (getAttemptsStr []) (fun _ => sampleMoment) n =
      wideCampaign.nodes.map fun node => (node, true) := by
    rw [← hasked, List.map_map]
    refine (List.map_id _).symm.trans (List.map_congr_left fun p hp => ?_)
    obtain ⟨node, found⟩ := p
    obtain ⟨m, hm, rfl⟩ := Pc.mem_asked hp
    obtain ⟨i, -, rfl⟩ := List.mem_map.mp hm
    have hnode : node ∈ wideCampaign.nodes := by
      rw [← hasked]
      exact List.mem_map_of_mem (f := Prod.fst) hp
    obtain ⟨key, hkey⟩ := fromText_wideCampaign hnode
    simp [findRoutes, hkey, sampleMoment]
  rw [hsent, hfound, horder.eq_wide]
  decide

/-! ## How often a pair is probed -/

/-- A step sends at most what it takes off the work ahead, interrupted or not. -/
theorem Pc.Move.sublist_ahead {m : Moment E} {pc pc' : Pc} {call : Option Call}
    (hmove : Move c setOfAttempts m pc pc' call) (h : pc.Within c setOfAttempts) :
    (pc.sends m call ++ c.eligible setOfAttempts (pc'.ahead c)).Sublist
      (c.eligible setOfAttempts (pc.ahead c)) := by
  cases hmove with
  | finish | stay | route | noTx | take | wait | go | begin | retry => exact List.Sublist.refl _
  | noRoute node nodes _ =>
    exact List.Sublist.filter _ (List.sublist_append_right _ _)
  | interrupted node tx txs nodes _ =>
    refine List.Sublist.filter _ ?_
    exact (List.sublist_append_right _ _).cons _
  | skip node tx txs nodes _ _ =>
    exact List.Sublist.filter _ ((List.Sublist.refl _).cons _)
  | sent node tx txs nodes =>
    have hskips := h.fresh node tx txs nodes rfl
    show List.Sublist ((node, tx) :: c.eligible _ _) (c.eligible _ (_ :: _))
    rw [Campaign.eligible_cons, hskips, if_neg Bool.false_ne_true]
    exact List.Sublist.refl _

/-- **In any run, the probes sent are among the eligible pairs, each listing at most once.** -/
theorem Pc.Within.probed_sublist {ms : List (Moment E)} {pc pc' : Pc} {calls : List Call}
    (h : pc.Within c setOfAttempts) (hrun : pc.run us c setOfAttempts ms = some (pc', calls)) :
    (pc.probed us c setOfAttempts ms ++ c.eligible setOfAttempts (pc'.ahead c)).Sublist
      (c.eligible setOfAttempts (pc.ahead c)) := by
  induction ms generalizing pc calls with
  | nil =>
    cases hrun
    exact List.Sublist.refl _
  | cons m ms ih =>
    obtain ⟨moved, rest, hstep, hrest, -⟩ := Pc.run_cons hrun
    have hmove := Pc.step_move hstep
    have hprobed : pc.probed us c setOfAttempts (m :: ms) =
        pc.sends m moved.call ++ moved.pc.probed us c setOfAttempts ms := Pc.collect_cons _ hstep
    rw [hprobed, List.append_assoc]
    exact ((ih (h.move hmove).1 hrest).append_left _).trans (hmove.sublist_ahead h)

theorem Campaign.probed_sublist_rounds {ms : List (Moment E)} {pc : Pc} {calls : List Call}
    (hrun : (Pc.nextNode c.nodes).run us c setOfAttempts ms = some (pc, calls)) :
    ((Pc.nextNode c.nodes).probed us c setOfAttempts ms).Sublist
      (c.eligible setOfAttempts (c.rounds c.nodes)) :=
  (List.sublist_append_left _ _).trans ((Pc.Within.start _ _).probed_sublist hrun)

/-- The listings of a pair: the entries of the node list that read as the target, each with the
records that have the short channel id and are eligible there. -/
def Campaign.listings (c : Campaign) (setOfAttempts : Text → Option Verdict)
    (target : PublicKey E) (scid : UInt64) : List (Text × Transaction) :=
  (c.nodes.product c.txs).filter fun p => PublicKey.fromText E p.1 = some target ∧
    p.2.scid = scid ∧ c.Eligible setOfAttempts p.1 p.2

/-- The successful calls for a pair. -/
def successesFor (target : PublicKey E) (scid : UInt64) (calls : List Call) : List Call :=
  calls.filter fun call => call.ok ∧ PublicKey.fromText E call.node = some target ∧
    call.scid = scid

/-- **A pair is probed at most as often as it is listed.**  For every campaign, every attempt
set and every run, interrupted or cut off or not. -/
theorem probed_at_most_listed (us : PublicKey E) (c : Campaign)
    (setOfAttempts : Text → Option Verdict) (ms : List (Moment E)) {pc : Pc} {calls : List Call}
    (hrun : (Pc.nextNode c.nodes).run us c setOfAttempts ms = some (pc, calls))
    (target : PublicKey E) (scid : UInt64) :
    (successesFor target scid calls).length ≤ (c.listings setOfAttempts target scid).length := by
  let isPair (p : Text × UInt64) : Bool :=
    PublicKey.fromText E p.1 = some target ∧ p.2 = scid
  have hcalls : (successesFor target scid calls).length =
      ((sentPairs calls).filter isPair).length := by
    rw [sentPairs, List.filter_map, List.length_map, List.filter_filter]
    refine congrArg (fun q => (calls.filter q).length) (funext fun call => ?_)
    simp [isPair, Bool.and_comm]
  have hsub := Campaign.probed_sublist_rounds hrun
  have hrounds : (c.rounds c.nodes).Perm (c.nodes.product c.txs) :=
    List.Perm.flatMap_left _ fun node _ => c.newestFirst_sortedTxs.perm.map _
  rw [hcalls, Pc.sentPairs_run hrun, List.filter_map, List.length_map]
  refine (hsub.filter _).length_le.trans (le_of_eq ?_)
  rw [Campaign.eligible, List.filter_filter, (hrounds.filter _).length_eq, Campaign.listings]
  refine congrArg (fun q => ((c.nodes.product c.txs).filter q).length) (funext fun p => ?_)
  simp [isPair, Bool.and_assoc]

/-- The pair of the sample is listed once. -/
theorem probed_at_most_listed_once : (successesFor firstKey sampleTx.scid
    [⟨firstKey.toText, sampleTx.scid, true⟩]).length ≤
      (sampleCampaign.listings (getAttemptsStr []) firstKey sampleTx.scid).length :=
  probed_at_most_listed ourKey sampleCampaign (getAttemptsStr []) (List.replicate 7 sampleMoment)
    run_sampleSession.1 firstKey sampleTx.scid

/-- The steps of a campaign with one pair that is listed twice, if all goes well at the first
try. -/
theorem Pc.run_double {m : Moment E} {node : Text} {tx : Transaction}
    {pending : PaymentInfoStorage} {route route' : Route E} (hsorted : c.sortedTxs = [tx, tx])
    (hrunning : m.running = 0) (hpending : m.pendingPayments.keys.length ≤ 30)
    (hroute : findRoutes m.router node [] = some route)
    (hskips : c.skips setOfAttempts node tx = false)
    (hprobe : m.probe us node tx.scid = some (pending, .ok route')) :
    (Pc.nextNode [node]).run us c setOfAttempts (List.replicate 11 m) =
      some (.finished, List.replicate 2 ⟨node, tx.scid, true⟩) := by
  have hnode : (Pc.nextNode [node]).step us c setOfAttempts m =
      some (m.to (.nextTx node [tx, tx] [])) := by
    rw [Pc.step, hroute, hsorted]
  have hfirst := (Pc.run_taken hrunning hpending hskips hprobe [tx] [] (List.replicate 6 m)).1
  have hsecond := (Pc.run_taken hrunning hpending hskips hprobe [] [] (List.replicate 2 m)).1
  rw [List.replicate, Pc.run_to hnode]
  refine hfirst.trans ?_
  show Option.map _ ((Pc.nextTx node [tx] []).run us c setOfAttempts
    (m :: m :: m :: m :: List.replicate 2 m)) = _
  rw [hsecond]
  rfl

/-- The output of the sample stands in the files twice. -/
def doubleCampaign : Campaign := { sampleCampaign with txs := [sampleTx, sampleTx] }

/-- A pair that is listed twice is probed twice in one run. -/
theorem probed_twice : ∃ calls,
    (Pc.nextNode doubleCampaign.nodes).run ourKey doubleCampaign (getAttemptsStr [])
      (List.replicate 11 sampleMoment) = some (.finished, calls) ∧
    (successesFor firstKey sampleTx.scid calls).length = 2 := by
  have hroute : findRoutes sampleMoment.router firstKey.toText [] = some ⟨[samplePath]⟩ := by
    rw [findRoutes, PublicKey.fromText_toText]
    rfl
  obtain ⟨pending, hprobe⟩ := exists_probe_sampleMoment
  refine ⟨_, Pc.run_double (List.mergeSort_of_pairwise (by decide)) rfl (by decide) hroute
    skips_sampleTx hprobe, ?_⟩
  simp [successesFor]

/-! ## The notes' best guess -/

/-- The criteria of `dev-notes.md` for an output worth probing. -/
structure Campaign.BestGuess (c : Campaign) (tx : Transaction) : Prop where
  amount : 100000 < tx.amount
  divisible : tx.amount % 10000 = 0
  vout : tx.transactionIndex < 2
  notPublic : tx.scid ∉ c.shortChannelIds

/-- The table has a conclusive row under the key of the pair. -/
def Attempted (attempts : List Attempt) (node : Text) (scid : UInt64) : Prop :=
  ∃ row ∈ attempts, row.result ≠ .unknown ∧ row.key = attemptKey node scid

/-- Every probe of the run is of an output that meets the criteria, and every output that meets
them, and was not attempted before, is probed at every node a route was found to. -/
structure Campaign.FollowsNotes (us : PublicKey E) (c : Campaign) (attempts : List Attempt)
    (ms : List (Moment E)) : Prop where
  sound : ∀ p ∈ (Pc.nextNode c.nodes).probed us c (getAttemptsStr attempts) ms, c.BestGuess p.2
  complete : ∀ tx ∈ c.txs, c.BestGuess tx → ∀ node,
    (node, true) ∈ (Pc.nextNode c.nodes).asked us c (getAttemptsStr attempts) ms →
    ¬ Attempted attempts node tx.scid →
    (node, tx) ∈ (Pc.nextNode c.nodes).probed us c (getAttemptsStr attempts) ms

theorem Campaign.mem_eligible {rounds : List (Text × Transaction)} {node : Text}
    {tx : Transaction} : (node, tx) ∈ c.eligible setOfAttempts rounds ↔
      (node, tx) ∈ rounds ∧ c.Eligible setOfAttempts node tx := by
  simp [Campaign.eligible]

theorem Campaign.mem_covered {order : List Transaction} {asked : List (Text × Bool)}
    {node : Text} {tx : Transaction} : (node, tx) ∈ c.covered setOfAttempts order asked ↔
      (node, true) ∈ asked ∧ tx ∈ order ∧ c.Eligible setOfAttempts node tx := by
  simp only [Campaign.covered, Campaign.eligibleAt, List.mem_flatMap, List.mem_filter,
    Campaign.mem_eligible, List.mem_map, Prod.mk.injEq]
  constructor
  · rintro ⟨⟨node', found⟩, ⟨hasked, hfound⟩, ⟨tx', htx, rfl, rfl⟩, heligible⟩
    have htrue : found = true := hfound
    rw [htrue] at hasked
    exact ⟨hasked, htx, heligible⟩
  · rintro ⟨hasked, htx, heligible⟩
    exact ⟨(node, true), ⟨hasked, rfl⟩, ⟨tx, htx, rfl, rfl⟩, heligible⟩

/-- Under the assumptions, what is eligible lacks one criterion only. -/
theorem Campaign.Eligible.bestGuess {node : Text} {tx : Transaction}
    (h : c.Eligible setOfAttempts node tx) (hassume : c.probetype = "assumptions".toList)
    (hover : 100000 < tx.amount) : c.BestGuess tx := by
  obtain ⟨hassumed, hpublic, -⟩ := h
  obtain ⟨hdivisible, hvout⟩ := hassumed hassume
  refine ⟨hover, hdivisible, ?_, hpublic⟩
  rw [UInt64.le_iff_toNat_le] at hvout
  rw [UInt64.lt_iff_toNat_lt]
  exact Nat.lt_succ_of_le hvout

theorem Campaign.BestGuess.eligible {attempts : List Attempt} {node : Text} {tx : Transaction}
    (h : c.BestGuess tx) (hattempted : ¬ Attempted attempts node tx.scid) :
    c.Eligible (getAttemptsStr attempts) node tx := by
  refine ⟨fun _ => ⟨h.divisible, ?_⟩, h.notPublic, ?_⟩
  · have hvout := h.vout
    rw [UInt64.lt_iff_toNat_lt] at hvout
    rw [UInt64.le_iff_toNat_le]
    exact Nat.le_of_lt_succ hvout
  · rw [← Option.not_isSome_iff_eq_none, isSome_getAttemptsStr_iff]
    exact hattempted

/-- **`probeall assumptions` follows the notes exactly if nothing that passes its filter is
worth 100000 satoshis or less.**  For every node list, all transactions and every attempt table:
a run to the end follows the notes exactly if, at each node a route was found to, every output
that is eligible is over 100000 satoshis; and any run, interrupted or not, probes only what
meets the criteria if that holds at all nodes of the list. -/
theorem best_guess_iff (us : PublicKey E) (c : Campaign)
    (hassume : c.probetype = "assumptions".toList) (attempts : List Attempt)
    (ms : List (Moment E)) {pc : Pc} {calls : List Call}
    (hrun : (Pc.nextNode c.nodes).run us c (getAttemptsStr attempts) ms = some (pc, calls)) :
    (pc = .finished → (∀ m ∈ ms, m.running = 0) →
      (c.FollowsNotes us attempts ms ↔ ∀ node tx,
        (node, true) ∈ (Pc.nextNode c.nodes).asked us c (getAttemptsStr attempts) ms →
        tx ∈ c.txs → c.Eligible (getAttemptsStr attempts) node tx → 100000 < tx.amount)) ∧
    ((∀ node ∈ c.nodes, ∀ tx ∈ c.txs, c.Eligible (getAttemptsStr attempts) node tx →
        100000 < tx.amount) →
      ∀ p ∈ (Pc.nextNode c.nodes).probed us c (getAttemptsStr attempts) ms, c.BestGuess p.2) := by
  constructor
  · rintro rfl hquiet
    have hround := ((Pc.Within.start c (getAttemptsStr attempts)).run_covers hrun hquiet).2
    have hprobed : (Pc.nextNode c.nodes).probed us c (getAttemptsStr attempts) ms =
        c.covered (getAttemptsStr attempts) c.sortedTxs
          ((Pc.nextNode c.nodes).asked us c (getAttemptsStr attempts) ms) :=
      (List.append_nil _).symm.trans hround
    have hsorted : ∀ tx, tx ∈ c.sortedTxs ↔ tx ∈ c.txs := fun tx =>
      c.newestFirst_sortedTxs.perm.mem_iff
    constructor
    · intro hfollows node tx hasked htx heligible
      refine (hfollows.sound (node, tx) ?_).amount
      rw [hprobed, Campaign.mem_covered, hsorted]
      exact ⟨hasked, htx, heligible⟩
    · intro hover
      refine ⟨fun ⟨node, tx⟩ hmem => ?_, fun tx htx hbest node hasked hattempted => ?_⟩
      · rw [hprobed, Campaign.mem_covered, hsorted] at hmem
        obtain ⟨hasked, htx, heligible⟩ := hmem
        exact heligible.bestGuess hassume (hover node tx hasked htx heligible)
      · rw [hprobed, Campaign.mem_covered, hsorted]
        exact ⟨hasked, htx, hbest.eligible hattempted⟩
  · intro hover p hmem
    obtain ⟨hround, heligible⟩ :=
      Campaign.mem_eligible.mp ((Campaign.probed_sublist_rounds hrun).subset hmem)
    obtain ⟨hnode, htx⟩ := mem_rounds.mp hround
    exact heligible.bestGuess hassume (hover p.1 hnode p.2 htx heligible)

/-- The sample with an output that meets the criteria. -/
def guessCampaign : Campaign := { sampleCampaign with txs := [{ sampleTx with amount := 200000 }] }

theorem best_guess_followed :
    guessCampaign.FollowsNotes ourKey [] (List.replicate 7 sampleMoment) := by
  have hroute : findRoutes sampleMoment.router firstKey.toText [] = some ⟨[samplePath]⟩ := by
    rw [findRoutes, PublicKey.fromText_toText]
    rfl
  obtain ⟨pending, hprobe⟩ := exists_probe_sampleMoment
  have hsorted : guessCampaign.sortedTxs = [{ sampleTx with amount := 200000 }] :=
    List.mergeSort_singleton _
  have hskips : guessCampaign.skips (getAttemptsStr []) firstKey.toText
      { sampleTx with amount := 200000 } = false := by decide
  have hrun := (Pc.run_single hsorted rfl (by decide) hroute hskips hprobe).1
  refine ((best_guess_iff ourKey guessCampaign rfl [] _ hrun).1 rfl ?_).mpr ?_
  · intro m hm
    rw [List.eq_of_mem_replicate hm]
    rfl
  · intro node tx _ htx _
    rw [List.mem_singleton.mp htx]
    decide

/-- An output of 20000 satoshis is probed under the assumptions. -/
theorem best_guess_missed :
    sampleSession.run ourKey sampleCampaign [] =
      some (.finished, [⟨firstKey.toText, sampleTx.scid, true⟩]) ∧
    (∀ m ∈ sampleSession.moments, m.running = 0) ∧
    ¬ sampleCampaign.FollowsNotes ourKey [] sampleSession.moments := by
  have hrun := run_sampleSession.1
  refine ⟨hrun, fun m hm => ?_, fun hfollows => ?_⟩
  · rw [List.eq_of_mem_replicate hm]
    rfl
  · have hpairs : sentPairs [⟨firstKey.toText, sampleTx.scid, true⟩] =
        ((Pc.nextNode sampleCampaign.nodes).probed ourKey sampleCampaign (getAttemptsStr [])
          sampleSession.moments).map fun p => (p.1, p.2.scid) := Pc.sentPairs_run hrun
    have hsent : (firstKey.toText, sampleTx.scid) ∈
        sentPairs [⟨firstKey.toText, sampleTx.scid, true⟩] := List.mem_singleton_self _
    rw [hpairs] at hsent
    obtain ⟨p, hp, -⟩ := List.mem_map.mp hsent
    have hround := ((Campaign.probed_sublist_rounds hrun).trans List.filter_sublist).subset hp
    have hover := (hfollows.sound p hp).amount
    rw [List.mem_singleton.mp (mem_rounds.mp hround).2] at hover
    exact absurd hover (by decide)

end HiddenLightning
