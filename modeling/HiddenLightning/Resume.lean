import HiddenLightning.Campaign

/-! # A campaign goes on where it left off

A campaign is long, and so it is run in several sessions: `probeall` is interrupted, the
program is killed, and some day `probeall` is started again on the same nodes and files.
What carries over is the attempt table.  In between, and while a session runs, the failures
of its probes come in and `handle_ldk_events` adds their rows.

A session never probes again what the table it began with has a conclusive row for, and
once a session has come to its end undisturbed, with all its probes recorded, no later one
probes anything (`campaigns_resume`).
-/
namespace HiddenLightning
open Numerals

variable {E : Secp256k1}

/-- Failures handled one after the other. -/
def handleAll (events : List (Nat × PaymentPathFailed E)) (attempts : List Attempt) :
    Option (List Attempt) :=
  events.foldlM (fun attempts event => handlePaymentPathFailed event.1 event.2 attempts) attempts

variable (E) in
/-- One run of `probeall`: the transactions in the order they were read, what the loops found
at each step until the run ended or was cut off, and the failures handled from its start to
the start of the next. -/
structure Session where
  txs : List Transaction
  moments : List (Moment E)
  events : List (Nat × PaymentPathFailed E)

/-- The session on the attempt table it finds. -/
def Session.run (us : PublicKey E) (c : Campaign) (s : Session E) (attempts : List Attempt) :
    Option (Pc × List Call) :=
  Pc.run us { c with txs := s.txs } (getAttemptsStr attempts) s.moments (.nextNode c.nodes)

/-- The attempt table after some sessions. -/
def attemptsAfter (sessions : List (Session E)) (attempts : List Attempt) :
    Option (List Attempt) :=
  sessions.foldlM (fun attempts s => handleAll s.events attempts) attempts

/-! ## The table grows -/

theorem subset_of_handleAll {events : List (Nat × PaymentPathFailed E)}
    {attempts attempts' : List Attempt} (h : handleAll events attempts = some attempts') :
    attempts ⊆ attempts' := by
  induction events generalizing attempts with
  | nil =>
    cases h
    exact List.Subset.refl _
  | cons event events ih =>
    obtain ⟨next, hnext, hrest⟩ := Option.bind_eq_some_iff.mp h
    have hgrown : attempts ⊆ next := by
      obtain ⟨rfl, -⟩ | ⟨_, _, _, _, -, -, rfl⟩ := handlePaymentPathFailed_eq hnext
      · exact List.Subset.refl _
      · exact List.subset_append_left _ _
    exact List.Subset.trans hgrown (ih hrest)

theorem attemptsAfter_append (sessions sessions' : List (Session E)) (attempts : List Attempt) :
    attemptsAfter (sessions ++ sessions') attempts =
      (attemptsAfter sessions attempts).bind (attemptsAfter sessions') :=
  List.foldlM_append ..

theorem subset_of_attemptsAfter {sessions : List (Session E)} {attempts attempts' : List Attempt}
    (h : attemptsAfter sessions attempts = some attempts') : attempts ⊆ attempts' := by
  induction sessions generalizing attempts with
  | nil =>
    cases h
    exact List.Subset.refl _
  | cons s sessions ih =>
    obtain ⟨next, hnext, hrest⟩ := Option.bind_eq_some_iff.mp h
    exact List.Subset.trans (subset_of_handleAll hnext) (ih hrest)

/-- The table has a conclusive row for the pair. -/
def Conclusive (attempts : List Attempt) (target : PublicKey E) (scid : UInt64) : Prop :=
  ∃ row ∈ attempts, row.result ≠ .unknown ∧ row.targetPubkey = target.toText ∧
    row.channelId = decimal scid.toNat

theorem Conclusive.isSome_getAttemptsStr {attempts : List Attempt} {target : PublicKey E}
    {scid : UInt64} (h : Conclusive attempts target scid) :
    (getAttemptsStr attempts (attemptKey target.toText scid)).isSome := by
  obtain ⟨row, hmem, hresult, htarget, hchannel⟩ := h
  refine (isSome_getAttemptsStr_iff _ _).mpr ⟨row, hmem, hresult, ?_⟩
  rw [Attempt.key, htarget, hchannel]
  rfl

/-- The order of the transactions makes no difference to what is passed over. -/
theorem Campaign.skips_txs (c : Campaign) (txs : List Transaction) :
    Campaign.skips { c with txs := txs } = c.skips := rfl

/-- What was passed over is passed over with more rows as well. -/
theorem Campaign.skips_mono {c : Campaign} {attempts attempts' : List Attempt} {node : Text}
    {tx : Transaction} (hsub : attempts ⊆ attempts')
    (h : c.skips (getAttemptsStr attempts) node tx) : c.skips (getAttemptsStr attempts') node tx := by
  simp only [Campaign.skips, decide_eq_true_eq, isSome_getAttemptsStr_iff] at h ⊢
  rcases h with hassumed | hpublic | ⟨row, hmem, hrow⟩
  · exact Or.inl hassumed
  · exact Or.inr (Or.inl hpublic)
  · exact Or.inr (Or.inr ⟨row, hsub hmem, hrow⟩)

theorem Campaign.skips_of_isSome {c : Campaign} {setOfAttempts : Text → Option Verdict}
    {node : Text} {tx : Transaction} (h : (setOfAttempts (attemptKey node tx.scid)).isSome) :
    c.skips setOfAttempts node tx :=
  decide_eq_true (Or.inr (Or.inr h))

/-! ## What a session records -/

/-- Among the failures handled there is one of a path that ends with the pair, and with a code
that has a verdict. -/
def Session.Recorded (s : Session E) (target : PublicKey E) (scid : UInt64) : Prop :=
  ∃ date ev front node last code, (date, ev) ∈ s.events ∧ ev.path = front ++ [node, last] ∧
    node.pubkey = target ∧ last.shortChannelId = scid ∧ ev.errorCode = some code ∧
    verdictOf code ≠ .unknown

theorem Session.Recorded.conclusive {s : Session E} {target : PublicKey E} {scid : UInt64}
    {attempts attempts' : List Attempt} (h : s.Recorded target scid)
    (hafter : handleAll s.events attempts = some attempts') :
    Conclusive attempts' target scid := by
  obtain ⟨date, ev, front, node, last, code, hmem, hpath, rfl, rfl, hcode, hverdict⟩ := h
  obtain ⟨before, after, hevents⟩ := List.append_of_mem hmem
  rw [handleAll, hevents, List.foldlM_append] at hafter
  obtain ⟨mid, -, hrest⟩ := Option.bind_eq_some_iff.mp hafter
  obtain ⟨next, hnext, hlater⟩ := Option.bind_eq_some_iff.mp hrest
  -- the failure adds its row, and the later ones keep it
  have hrow := handlePaymentPathFailed_append date ev.paymentHash front node last code mid
  have hev : ev = ⟨ev.paymentHash, front ++ [node, last], some code⟩ := by
    rw [← hpath, ← hcode]
  rw [← hev] at hrow
  obtain rfl := Option.some.inj (hnext.symm.trans hrow)
  exact ⟨_, subset_of_handleAll hlater (List.mem_append_right _ (List.mem_singleton_self _)),
    hverdict, rfl, rfl⟩

/-- The session comes to its end, undisturbed, and all probes it sent are recorded. -/
def Session.Settles (us : PublicKey E) (c : Campaign) (s : Session E) (attempts : List Attempt) :
    Prop :=
  ∃ calls, s.run us c attempts = some (.finished, calls) ∧
    (Pc.nextNode c.nodes).Undisturbed us { c with txs := s.txs } (getAttemptsStr attempts)
      s.moments ∧
    ∀ call ∈ calls, call.ok → ∀ target, PublicKey.fromText E call.node = some target →
      s.Recorded target call.scid

/-! ## Sessions -/

section
variable {us : PublicKey E} {c : Campaign}

/-- Nothing is called for that has a conclusive row. -/
theorem Session.not_conclusive_of_call
    (hnodes : ∀ node ∈ c.nodes, ∃ target : PublicKey E, node = target.toText) {s : Session E}
    {attempts : List Attempt} {pc : Pc} {calls : List Call}
    (hrun : s.run us c attempts = some (pc, calls)) {call : Call} (hcall : call ∈ calls)
    {target : PublicKey E} (htarget : PublicKey.fromText E call.node = some target) :
    ¬ Conclusive attempts target call.scid := by
  intro hconclusive
  obtain ⟨tx, hround, hscid, hskips⟩ := (Pc.Within.start _ _).run_calls hrun call hcall
  obtain ⟨target', htext⟩ := hnodes call.node (mem_rounds.mp hround).1
  -- the text of the node is the one its key prints as
  rw [htext, PublicKey.fromText_toText] at htarget
  cases htarget
  have hsome := hconclusive.isSome_getAttemptsStr
  rw [← htext, hscid] at hsome
  rw [Campaign.skips_of_isSome hsome] at hskips
  cases hskips

/-- After a session that settles, everything is passed over. -/
theorem Session.Settles.skips
    (hnodes : ∀ node ∈ c.nodes, ∃ target : PublicKey E, node = target.toText) {s : Session E}
    {attempts attempts' : List Attempt} (h : s.Settles us c attempts)
    (hafter : handleAll s.events attempts = some attempts') {node : Text} {tx : Transaction}
    (hnode : node ∈ c.nodes) (htx : tx ∈ s.txs) :
    c.skips (getAttemptsStr attempts') node tx := by
  obtain ⟨calls, hrun, hleft, hrecorded⟩ := h
  by_cases hskips : c.skips (getAttemptsStr attempts) node tx
  · exact Campaign.skips_mono (subset_of_handleAll hafter) hskips
  · have hsent := (Pc.Within.start _ _).run_sent hrun hleft
    have hpair : (node, tx.scid) ∈ sentPairs calls := by
      have hnil : Campaign.wanted { c with txs := s.txs } (getAttemptsStr attempts)
          (Pc.ahead { c with txs := s.txs } .finished) = [] := rfl
      rw [hnil, List.append_nil] at hsent
      rw [hsent, Campaign.wanted]
      refine List.mem_map_of_mem (f := fun p => (p.1, p.2.scid)) (a := (node, tx)) ?_
      refine List.mem_filter.mpr ⟨mem_rounds.mpr ⟨hnode, htx⟩, ?_⟩
      rw [Campaign.skips_txs, Bool.eq_false_iff.mpr hskips]
      rfl
    obtain ⟨call, hcall, heq⟩ := List.mem_map.mp hpair
    obtain ⟨hmem, hok⟩ := List.mem_filter.mp hcall
    obtain ⟨hcallNode, hcallScid⟩ := Prod.mk.inj heq
    obtain ⟨target, htext⟩ := hnodes node hnode
    have hparse : PublicKey.fromText E call.node = some target := by
      rw [hcallNode, htext, PublicKey.fromText_toText]
    have hconclusive := (hrecorded call hmem hok target hparse).conclusive hafter
    apply Campaign.skips_of_isSome
    rw [htext, ← hcallScid]
    exact hconclusive.isSome_getAttemptsStr

end

/-- **Campaigns resume.**  For every sequence of sessions on the same nodes and files, each cut
off at any point or run to its end: no session calls `probe` for a pair for which the table it
began with has a conclusive row; and after a session that settles no session calls `probe` at
all. -/
theorem campaigns_resume (us : PublicKey E) (c : Campaign)
    (hnodes : ∀ node ∈ c.nodes, ∃ target : PublicKey E, node = target.toText)
    (attempts : List Attempt) (sessions : List (Session E))
    (hfiles : ∀ s ∈ sessions, s.txs.Perm c.txs) :
    (∀ before s after table pc calls, sessions = before ++ s :: after →
      attemptsAfter before attempts = some table → s.run us c table = some (pc, calls) →
      ∀ call ∈ calls, ∀ target : PublicKey E, PublicKey.fromText E call.node = some target →
        ¬ Conclusive table target call.scid) ∧
    ∀ before s between s' after table table' pc calls,
      sessions = before ++ s :: (between ++ s' :: after) →
      attemptsAfter before attempts = some table → s.Settles us c table →
      attemptsAfter (before ++ s :: between) attempts = some table' →
      s'.run us c table' = some (pc, calls) → calls = [] := by
  constructor
  · intro before s after table pc calls _ _ hrun call hcall target htarget
    exact Session.not_conclusive_of_call hnodes hrun hcall htarget
  · intro before s between s' after table table' pc calls hsessions htable hsettles htable' hrun
    rw [attemptsAfter_append, htable, Option.bind_some] at htable'
    obtain ⟨next, hnext, hlater⟩ := Option.bind_eq_some_iff.mp htable'
    have hs : s ∈ sessions := by
      rw [hsessions]
      simp
    have hs' : s' ∈ sessions := by
      rw [hsessions]
      simp
    have hsame : s'.txs.Perm s.txs := (hfiles s' hs').trans (hfiles s hs).symm
    rw [List.eq_nil_iff_forall_not_mem]
    intro call hcall
    obtain ⟨tx, hround, -, hskips⟩ := (Pc.Within.start _ _).run_calls hrun call hcall
    obtain ⟨hnode, htx⟩ := mem_rounds.mp hround
    have hpassed := hsettles.skips hnodes hnext hnode (hsame.subset htx)
    rw [Campaign.skips_txs, Campaign.skips_mono (subset_of_attemptsAfter hlater) hpassed] at hskips
    cases hskips

/-! ## One node, one transaction -/

/-- The three steps in which a pair is taken up. -/
theorem Pc.steps_taken {us : PublicKey E} {c : Campaign} {setOfAttempts : Text → Option Verdict}
    {m : Moment E} {node : Text} {tx : Transaction} (hrunning : m.running = 0)
    (hpending : m.pendingPayments.keys.length ≤ 30)
    (hskips : c.skips setOfAttempts node tx = false) (txs : List Transaction)
    (nodes : List Text) :
    (Pc.nextTx node (tx :: txs) nodes).step us c setOfAttempts m =
        some (m.to (.throttle node tx txs nodes)) ∧
      (Pc.throttle node tx txs nodes).step us c setOfAttempts m =
        some (m.to (.signal node tx txs nodes)) ∧
      (Pc.signal node tx txs nodes).step us c setOfAttempts m =
        some (m.to (.probing node tx txs nodes)) := by
  have hshort : ¬ 30 < m.pendingPayments.keys.length := by omega
  refine ⟨rfl, ?_, ?_⟩
  · rw [Pc.step, hrunning, if_neg (Nat.lt_irrefl 0), if_neg hshort]
  · rw [Pc.step, hrunning, if_neg (Nat.lt_irrefl 0), hskips, if_neg Bool.false_ne_true]

/-- These and the call of `probe`, if it succeeds at the first try. -/
theorem Pc.run_taken {us : PublicKey E} {c : Campaign} {setOfAttempts : Text → Option Verdict}
    {m : Moment E} {node : Text} {tx : Transaction} {pending : PaymentInfoStorage}
    {route : Route E} (hrunning : m.running = 0)
    (hpending : m.pendingPayments.keys.length ≤ 30)
    (hskips : c.skips setOfAttempts node tx = false)
    (hprobe : probe us m.router m.sendAlongPath m.preimage m.hash node (decimal tx.scid.toNat)
      hardcodedGuess m.pendingPayments = some (pending, .ok route))
    (txs : List Transaction) (nodes : List Text) (ms : List (Moment E)) :
    (Pc.nextTx node (tx :: txs) nodes).run us c setOfAttempts (m :: m :: m :: m :: ms) =
        ((Pc.nextTx node txs nodes).run us c setOfAttempts ms).map
          (fun rest => (rest.1, ⟨node, tx.scid, true⟩ :: rest.2)) ∧
      ((Pc.nextTx node (tx :: txs) nodes).Undisturbed us c setOfAttempts (m :: m :: m :: m :: ms) ↔
        (Pc.nextTx node txs nodes).Undisturbed us c setOfAttempts ms) := by
  obtain ⟨htake, hthrottle, hsignal⟩ := Pc.steps_taken hrunning hpending hskips txs nodes
  have hprobing : (Pc.probing node tx txs nodes).step us c setOfAttempts m =
      some ⟨.nextTx node txs nodes, pending, some ⟨node, tx.scid, true⟩⟩ := by
    rw [Pc.step, hprobe]
  constructor
  · rw [Pc.run_to htake, Pc.run_to hthrottle, Pc.run_to hsignal, Pc.run, hprobing]
    rfl
  · simp [Pc.Undisturbed, Pc.Reaches, hrunning, htake, hthrottle, hsignal, hprobing, Moment.to]

/-- The seven steps of a campaign with one pair. -/
theorem Pc.run_single {us : PublicKey E} {c : Campaign} {setOfAttempts : Text → Option Verdict}
    {m : Moment E} {node : Text} {tx : Transaction} {pending : PaymentInfoStorage}
    {route route' : Route E} (hsorted : c.sortedTxs = [tx]) (hrunning : m.running = 0)
    (hpending : m.pendingPayments.keys.length ≤ 30)
    (hroute : findRoutes m.router node [] = some route)
    (hskips : c.skips setOfAttempts node tx = false)
    (hprobe : probe us m.router m.sendAlongPath m.preimage m.hash node (decimal tx.scid.toNat)
      hardcodedGuess m.pendingPayments = some (pending, .ok route')) :
    Pc.run us c setOfAttempts (List.replicate 7 m) (.nextNode [node]) =
        some (.finished, [⟨node, tx.scid, true⟩]) ∧
      (Pc.nextNode [node]).Undisturbed us c setOfAttempts (List.replicate 7 m) := by
  have hnode : (Pc.nextNode [node]).step us c setOfAttempts m =
      some (m.to (.nextTx node [tx] [])) := by
    rw [Pc.step, hroute, hsorted]
  have hnoTx : (Pc.nextTx node [] []).step us c setOfAttempts m = some (m.to (.nextNode [])) := rfl
  have hfinish : (Pc.nextNode []).step us c setOfAttempts m = some (m.to .finished) := rfl
  obtain ⟨hrun, hleft⟩ := Pc.run_taken hrunning hpending hskips hprobe [] [] [m, m]
  constructor
  · rw [List.replicate, Pc.run_to hnode]
    refine hrun.trans ?_
    rw [Pc.run_to hnoTx, Pc.run_to hfinish]
    rfl
  · refine ⟨hrunning, by rw [Pc.Reaches, hroute]; rfl, fun moved hstep => ?_⟩
    rw [hnode] at hstep
    cases hstep
    refine hleft.mpr ?_
    simp [Pc.Undisturbed, Pc.Reaches, hrunning, hnoTx, Moment.to]

/-- An output that meets the assumptions. -/
def sampleTx : Transaction where
  blockHeight := 700000
  id := []
  blockIndex := 5
  transactionIndex := 1
  amount := 20000

/-- It is to be probed at node 1. -/
def sampleCampaign : Campaign where
  probetype := "assumptions".toList
  nodes := [firstKey.toText]
  txs := [sampleTx]
  shortChannelIds := []

/-- From us to node 1, and over the channel to the guess. -/
def samplePath : List (RouteHop sampleKeys) := [⟨firstKey, 10⟩, ⟨guessKey, sampleTx.scid⟩]

/-- The router finds `samplePath`, and it can be paid. -/
def sampleMoment : Moment sampleKeys where
  running := 0
  pendingPayments := ∅
  router _ _ := some ⟨[samplePath]⟩
  sendAlongPath _ := .sent
  preimage := []
  hash := []

/-- A session to the end; the probe fails with `unknown_next_peer`. -/
def sampleSession : Session sampleKeys where
  txs := [sampleTx]
  moments := List.replicate 7 sampleMoment
  events := [(0, ⟨[], samplePath, some 0x400a⟩)]

theorem hardcodedGuess_eq : hardcodedGuess = guessKey.toText := by decide

/-- A probe of any channel gets through, for any node and however it is spelled. -/
theorem exists_probe_spelled {node : Text} {key : PublicKey sampleKeys}
    (hnode : PublicKey.fromText sampleKeys node = some key) (scid : UInt64) : ∃ pending,
    probe ourKey sampleMoment.router sampleMoment.sendAlongPath sampleMoment.preimage
      sampleMoment.hash node (decimal scid.toNat) hardcodedGuess
      sampleMoment.pendingPayments = some (pending, .ok ⟨[samplePath]⟩) := by
  have hroute : ∀ hints, findRoutes sampleMoment.router hardcodedGuess hints =
      some ⟨[samplePath]⟩ := by
    intro hints
    rw [findRoutes, hardcodedGuess_eq, PublicKey.fromText_toText]
    rfl
  have hsend : sendPayment ourKey sampleMoment.sendAlongPath none ⟨[samplePath]⟩ =
      .ok () := by
    simp [sendPayment, checkPath, samplePath, sampleMoment, firstKey_ne_ourKey]
  have hscid : scid.toNat ≤ maxU64 := Nat.le_of_lt_succ scid.toNat_lt
  rw [probe, hnode, parseUnsigned_decimal hscid]
  simp only [hroute, hsend]
  exact ⟨_, rfl⟩

theorem exists_probe_sampleMoment : ∃ pending, probe ourKey sampleMoment.router
    sampleMoment.sendAlongPath sampleMoment.preimage sampleMoment.hash firstKey.toText
    (decimal sampleTx.scid.toNat) hardcodedGuess sampleMoment.pendingPayments =
      some (pending, .ok ⟨[samplePath]⟩) :=
  exists_probe_spelled (PublicKey.fromText_toText firstKey) sampleTx.scid

theorem skips_sampleTx :
    sampleCampaign.skips (getAttemptsStr []) firstKey.toText sampleTx = false := by
  decide

theorem run_sampleSession : sampleSession.run ourKey sampleCampaign [] =
      some (.finished, [⟨firstKey.toText, sampleTx.scid, true⟩]) ∧
    (Pc.nextNode sampleCampaign.nodes).Undisturbed ourKey
      { sampleCampaign with txs := sampleSession.txs } (getAttemptsStr [])
      sampleSession.moments := by
  have hroute : findRoutes sampleMoment.router firstKey.toText [] = some ⟨[samplePath]⟩ := by
    rw [findRoutes, PublicKey.fromText_toText]
    rfl
  obtain ⟨pending, hprobe⟩ := exists_probe_sampleMoment
  exact Pc.run_single (List.mergeSort_singleton _) rfl (by decide) hroute skips_sampleTx hprobe

/-- The first session probes the channel, and a second finds nothing left to probe. -/
theorem campaign_resumes_settled : ∃ table, attemptsAfter [sampleSession] [] = some table ∧
    sampleSession.run ourKey sampleCampaign [] =
      some (.finished, [⟨firstKey.toText, sampleTx.scid, true⟩]) ∧
    ∃ pc, sampleSession.run ourKey sampleCampaign table = some (pc, []) := by
  have hnodes : ∀ node ∈ sampleCampaign.nodes, ∃ target : PublicKey sampleKeys,
      node = target.toText := fun node hnode => ⟨firstKey, List.mem_singleton.mp hnode⟩
  have hfiles : ∀ s ∈ [sampleSession, sampleSession], s.txs.Perm sampleCampaign.txs := by
    intro s hs
    rw [List.mem_cons, List.mem_singleton, or_self] at hs
    rw [hs]
    exact List.Perm.refl _
  obtain ⟨table, htable⟩ : ∃ table, attemptsAfter [sampleSession] [] = some table := ⟨_, rfl⟩
  have hsettles : sampleSession.Settles ourKey sampleCampaign [] := by
    refine ⟨_, run_sampleSession.1, run_sampleSession.2, fun call hcall _ target htarget => ?_⟩
    rw [List.mem_singleton.mp hcall, PublicKey.fromText_toText] at htarget
    cases htarget
    rw [List.mem_singleton.mp hcall]
    exact ⟨0, _, [], _, _, 0x400a, List.mem_singleton_self _, rfl, rfl, rfl, rfl, by decide⟩
  obtain ⟨⟨pc, calls⟩, hrun⟩ : ∃ out, sampleSession.run ourKey sampleCampaign table =
      some out := (Pc.named_nextNode _).exists_run _
  have hnone := (campaigns_resume ourKey sampleCampaign hnodes []
    [sampleSession, sampleSession] hfiles).2 [] sampleSession [] sampleSession [] [] table pc calls
    rfl rfl hsettles htable hrun
  rw [hnone] at hrun
  exact ⟨table, htable, run_sampleSession.1, pc, hrun⟩

end HiddenLightning
