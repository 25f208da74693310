import HiddenLightning.Probe

/-! # Payments and their failures

Probes are not the only payments of the node: `sendfakepayment` pays a random hash over
the route `find_routes` gives, and `sendpayment` and `keysend` pay through LDK's
`InvoicePayer`.  The failures of all of them come back as `PaymentPathFailed` events,
through `InvoicePayer`, which retries nothing (`Retry::Attempts(0)`) and so hands every
event on to `handle_ldk_events`.

The handler of `PaymentFailed` looks the payment up among the pending payments, where
`probe` alone puts something (`pending_probed`).  The handler of `PaymentPathFailed` does
not, and inserts a row for whatever payment has failed: `only_probes_recorded_iff` says in
which runs all rows are a probe's.
-/
namespace HiddenLightning
open Numerals

variable {E : Secp256k1}

/-! ## `InvoicePayer` -/

/-- `payment_cache`: the attempts counted for each payment under way. -/
abbrev PaymentCache := AList fun _ : List UInt8 => Nat

/-- The number in `Retry::Attempts(0)`, as `main.rs` sets it. -/
def maxRetryCount : Nat := 0

/-- `Retry::is_retryable_now`. -/
def isRetryableNow (count : Nat) : Bool := count ≤ maxRetryCount

/-- `InvoicePayer::retry_payment`, and whether it returns `Ok`.  `retried` is the outcome of
sending once more, if it comes to that. -/
def retryPayment (retried : Bool) (hash : List UInt8) (cache : PaymentCache) :
    PaymentCache × Bool :=
  let count := (cache.lookup hash).getD 0 + 1
  (cache.insert hash count, isRetryableNow count && retried)

/-- **Nothing is retried.** -/
theorem retryPayment_snd (retried : Bool) (hash : List UInt8) (cache : PaymentCache) :
    (retryPayment retried hash cache).2 = false := by
  have hcount : ¬ (cache.lookup hash).getD 0 + 1 ≤ maxRetryCount := by
    rw [maxRetryCount]
    omega
  simp [retryPayment, isRetryableNow, hcount]

/-- `PaymentError`. -/
inductive PaymentError where
  | invoice
  | routing
  | sending (e : PaymentSendFailure)
deriving DecidableEq

variable (E) in
/-- What a command that pays meets in LDK: the router, the channels, whether some amount is
left unsent (`failed_paths_retry`), and the outcome of paying once more. -/
structure Ldk where
  router : Router E
  sendAlongPath : List (RouteHop E) → PathResult
  unsent : Bool := false
  payAgain : PaymentCache → PaymentCache × List (List (RouteHop E)) × Except PaymentError Unit :=
    fun cache => (cache, [], .error .routing)
  retried : Bool := false

/-- The paths whose HTLC may be on its way after `send_payment`. -/
def sentPaths (us : PublicKey E) (sendAlongPath : List (RouteHop E) → PathResult)
    (paymentSecret : Option (List UInt8)) (route : Route E) : List (List (RouteHop E)) :=
  match sendPayment us sendAlongPath paymentSecret route with
  | .error .parameterError => []
  | .error .pathParameterError => []
  | _ => route.paths.filter fun path => sendAlongPath path ≠ .failed

/-- `InvoicePayer::pay_internal`, with the paths sent. -/
def payInternal (us : PublicKey E) (ldk : Ldk E) (paymentSecret : Option (List UInt8))
    (expired : Bool) (payee : PublicKey E) (hints : List (List (RouteHintHop E)))
    (hash : List UInt8) (cache : PaymentCache) :
    PaymentCache × List (List (RouteHop E)) × Except PaymentError Unit :=
  if expired then (cache, [], .error .invoice)
  else match ldk.router payee hints with
  | none => (cache, [], .error .routing)
  | some route =>
    let sent := sentPaths us ldk.sendAlongPath paymentSecret route
    match sendPayment us ldk.sendAlongPath paymentSecret route with
    | .ok _ => (cache, sent, .ok ())
    | .error .parameterError => (cache, sent, .error (.sending .parameterError))
    | .error .pathParameterError => (cache, sent, .error (.sending .pathParameterError))
    | .error .allFailedRetrySafe =>
      let count := (cache.lookup hash).getD 0 + 1
      if isRetryableNow count then ldk.payAgain (cache.insert hash count)
      else (cache.insert hash count, sent, .error (.sending .allFailedRetrySafe))
    | .error .partialFailure =>
      -- some paths were sent, so this counts as paid
      (if ldk.unsent then (retryPayment ldk.retried hash cache).1 else cache, sent, .ok ())

/-- What `pay_invoice` and `pay_pubkey` share: one payment at a time for a hash, and a payment
that could not be made leaves the cache. -/
def payCached (us : PublicKey E) (ldk : Ldk E) (paymentSecret : Option (List UInt8))
    (expired : Bool) (payee : PublicKey E) (hints : List (List (RouteHintHop E)))
    (hash : List UInt8) (cache : PaymentCache) :
    PaymentCache × List (List (RouteHop E)) × Except PaymentError Unit :=
  if hash ∈ cache then (cache, [], .error .invoice)
  else
    match payInternal us ldk paymentSecret expired payee hints hash (cache.insert hash 0) with
    | (cache, sent, .ok _) => (cache, sent, .ok ())
    | (cache, sent, .error e) => (cache.erase hash, sent, .error e)

variable (E) in
/-- What is read of an invoice. -/
structure Invoice where
  paymentHash : List UInt8
  paymentSecret : List UInt8
  payee : PublicKey E
  routeHints : List (List (RouteHintHop E))
  amountMsat : Option Nat
  expired : Bool

/-- `InvoicePayer::pay_invoice`. -/
def payInvoice (us : PublicKey E) (ldk : Ldk E) (invoice : Invoice E) (cache : PaymentCache) :
    PaymentCache × List (List (RouteHop E)) × Except PaymentError Unit :=
  if invoice.amountMsat = none then (cache, [], .error .invoice)
  else payCached us ldk (some invoice.paymentSecret) invoice.expired invoice.payee
    invoice.routeHints invoice.paymentHash cache

/-- `InvoicePayer::pay_pubkey`. -/
def payPubkey (us : PublicKey E) (ldk : Ldk E) (payee : PublicKey E) (hash : List UInt8)
    (cache : PaymentCache) : PaymentCache × List (List (RouteHop E)) × Except PaymentError Unit :=
  payCached us ldk none false payee [] hash cache

/-- What `InvoicePayer` reads of a `PaymentPathFailed` event besides its hash, and the outcome
of paying once more. -/
structure RetryInfo where
  paymentId : Bool
  rejectedByDest : Bool
  retry : Bool
  retried : Bool

/-- `InvoicePayer::handle_event` on `PaymentPathFailed`, and whether it delegates the event. -/
def invoicePayerPathFailed (info : RetryInfo) (hash : List UInt8) (cache : PaymentCache) :
    PaymentCache × Bool :=
  if !info.paymentId then (cache, true)
  else if info.rejectedByDest then (cache, true)
  else if !info.retry then (cache, true)
  else
    let (cache, ok) := retryPayment info.retried hash cache
    (cache, !ok)

/-- **Every failure is handed on.** -/
theorem invoicePayerPathFailed_snd (info : RetryInfo) (hash : List UInt8) (cache : PaymentCache) :
    (invoicePayerPathFailed info hash cache).2 = true := by
  unfold invoicePayerPathFailed
  split_ifs
  · rfl
  · rfl
  · rfl
  · exact congrArg Bool.not (retryPayment_snd info.retried hash cache)

/-! ## The node -/

variable (E) in
/-- The node: the maps of payments, the attempt table, and the paths payments have gone out
on. -/
structure Payments where
  pendingPayments : PaymentInfoStorage
  outboundPayments : PaymentInfoStorage
  paymentCache : PaymentCache
  attempts : List Attempt
  sent : List (List UInt8 × List (RouteHop E))

/-- A node that has sent nothing yet. -/
def Payments.start (attempts : List Attempt) : Payments E where
  pendingPayments := ∅
  outboundPayments := ∅
  paymentCache := ∅
  attempts := attempts
  sent := []

variable (E) in
/-- A command that pays, an event of LDK, or a restart of the program. -/
inductive Act where
  | probe (ldk : Ldk E) (preimage hash : List UInt8) (pubkeyStr channelIdStr pubkeyGuess : Text)
  | sendFakePayment (ldk : Ldk E) (hash : List UInt8) (pubkeyStr : Text)
  | sendPayment (ldk : Ldk E) (invoice : Invoice E)
  | keysend (ldk : Ldk E) (hash : List UInt8) (payee : PublicKey E) (amtMsat : Nat)
  | paymentPathFailed (date : Nat) (info : RetryInfo) (ev : PaymentPathFailed E)
  | paymentFailed (hash : List UInt8)
  | paymentSent (preimage hash : List UInt8)
  | restart

/-- The route of a probe that gets as far as noting its payment. -/
def probeRoute (router : Router E) (pubkeyStr channelIdStr pubkeyGuess : Text) :
    Option (Route E) :=
  (PublicKey.fromText E pubkeyStr).bind fun source =>
    (parseUnsigned maxU64 channelIdStr).bind fun channelId =>
      findRoutes router pubkeyGuess (probeHint source (UInt64.ofNat channelId))

/-- The paths sent of the route found, if one was. -/
def pathsOf (us : PublicKey E) (ldk : Ldk E) (route : Option (Route E)) :
    List (List (RouteHop E)) :=
  match route with
  | none => []
  | some route => sentPaths us ldk.sendAlongPath none route

/-- What `send_payment` and `keysend` of `cli.rs` note of a payment. -/
def noteOutbound (hash : List UInt8) (secret : Option (List UInt8)) (amtMsat : Option Nat)
    (result : Except PaymentError Unit) (outbound : PaymentInfoStorage) : PaymentInfoStorage :=
  let info (status : HTLCStatus) : PaymentInfo :=
    { preimage := none, secret := secret, status := status, amtMsat := amtMsat }
  match result with
  | .ok _ => outbound.insert hash (info .pending)
  | .error .invoice => outbound
  | .error .routing => outbound
  | .error (.sending _) => outbound.insert hash (info .failed)

/-- `handle_ldk_events` on `PaymentFailed`. -/
def handlePaymentFailed (hash : List UInt8) (pending : PaymentInfoStorage) : PaymentInfoStorage :=
  if hash ∈ pending then pending.erase hash else pending

/-- `handle_ldk_events` on `PaymentSent`. -/
def handlePaymentSent (preimage hash : List UInt8) (outbound : PaymentInfoStorage) :
    PaymentInfoStorage :=
  match outbound.lookup hash with
  | none => outbound
  | some info => outbound.insert hash { info with preimage := some preimage, status := .succeeded }

/-- A payment's paths go out. -/
def Payments.send (node : Payments E) (hash : List UInt8) (paths : List (List (RouteHop E))) :
    Payments E :=
  { node with sent := node.sent ++ paths.map fun path => (hash, path) }

/-- One action; `none` when the program panics, or when the event is of no payment that was
sent. -/
def Payments.step (us : PublicKey E) (node : Payments E) : Act E → Option (Payments E)
  | .probe ldk preimage hash pubkeyStr channelIdStr pubkeyGuess =>
    (probe us ldk.router ldk.sendAlongPath preimage hash pubkeyStr channelIdStr pubkeyGuess
      node.pendingPayments).map fun result =>
        { node with pendingPayments := result.1 }.send hash
          (pathsOf us ldk (probeRoute ldk.router pubkeyStr channelIdStr pubkeyGuess))
  | .sendFakePayment ldk hash pubkeyStr =>
    some (node.send hash (pathsOf us ldk (findRoutes ldk.router pubkeyStr [])))
  | .sendPayment ldk invoice =>
    let (cache, sent, result) := payInvoice us ldk invoice node.paymentCache
    some <| { node with
      paymentCache := cache
      outboundPayments := noteOutbound invoice.paymentHash (some invoice.paymentSecret)
        invoice.amountMsat result node.outboundPayments }.send invoice.paymentHash sent
  | .keysend ldk hash payee amtMsat =>
    let (cache, sent, result) := payPubkey us ldk payee hash node.paymentCache
    some <| { node with
      paymentCache := cache
      outboundPayments := noteOutbound hash none (some amtMsat) result
        node.outboundPayments }.send hash sent
  | .paymentPathFailed date info ev =>
    if (ev.paymentHash, ev.path) ∈ node.sent then
      let (cache, delegated) := invoicePayerPathFailed info ev.paymentHash node.paymentCache
      if delegated then
        (handlePaymentPathFailed date ev node.attempts).map fun attempts =>
          { node with paymentCache := cache, attempts := attempts }
      else some { node with paymentCache := cache }
    else none
  | .paymentFailed hash =>
    if ∃ sent ∈ node.sent, sent.1 = hash then
      some { node with
        paymentCache := node.paymentCache.erase hash
        pendingPayments := handlePaymentFailed hash node.pendingPayments }
    else none
  | .paymentSent preimage hash =>
    if ∃ sent ∈ node.sent, sent.1 = hash then
      some { node with
        paymentCache := node.paymentCache.erase hash
        outboundPayments := handlePaymentSent preimage hash node.outboundPayments }
    else none
  | .restart =>
    -- the maps are gone; the table and the HTLCs are not
    some { node with pendingPayments := ∅, outboundPayments := ∅, paymentCache := ∅ }

/-- Any number of actions. -/
def Payments.run (us : PublicKey E) (node : Payments E) (acts : List (Act E)) :
    Option (Payments E) :=
  acts.foldlM (Payments.step us) node

theorem Payments.run_append (us : PublicKey E) (node : Payments E) (acts acts' : List (Act E)) :
    node.run us (acts ++ acts') = (node.run us acts).bind fun node' => node'.run us acts' :=
  List.foldlM_append ..

theorem Payments.run_cons (us : PublicKey E) (node : Payments E) (act : Act E)
    (acts : List (Act E)) :
    node.run us (act :: acts) = (node.step us act).bind fun node' => node'.run us acts := rfl

theorem Payments.run_singleton (us : PublicKey E) (node : Payments E) (act : Act E) :
    node.run us [act] = node.step us act := by
  rw [Payments.run_cons]
  cases node.step us act <;> rfl

theorem Payments.mem_send {node : Payments E} {hash : List UInt8} {path : List (RouteHop E)}
    {paths : List (List (RouteHop E))} (h : path ∈ paths) :
    (hash, path) ∈ (node.send hash paths).sent :=
  List.mem_append_right _ (List.mem_map_of_mem h)

/-- The hash an action put into the pending payments, be it only until sending failed. -/
def Act.probedHash : Act E → Option (List UInt8)
  | .probe ldk _ hash pubkeyStr channelIdStr pubkeyGuess =>
    (probeRoute ldk.router pubkeyStr channelIdStr pubkeyGuess).map fun _ => hash
  | _ => none

/-- The hashes that calls of `probe` put into the pending payments. -/
def probeHashes (acts : List (Act E)) : List (List UInt8) := acts.filterMap Act.probedHash

/-! ## What an action can do -/

theorem ne_nil_of_mem_sentPaths {us : PublicKey E} {sendAlongPath : List (RouteHop E) → PathResult}
    {paymentSecret : Option (List UInt8)} {route : Route E} {path : List (RouteHop E)}
    (h : path ∈ sentPaths us sendAlongPath paymentSecret route) : path ≠ [] := by
  rw [sentPaths, sendPayment] at h
  by_cases hfew : route.paths.length < 1
  · rw [if_pos hfew] at h
    cases h
  rw [if_neg hfew] at h
  by_cases hmany : paymentSecret.isNone && 1 < route.paths.length
  · rw [if_pos hmany] at h
    cases h
  rw [if_neg hmany] at h
  by_cases hbad : route.paths.any fun path => !checkPath us path
  · rw [if_pos hbad] at h
    cases h
  have hmem : path ∈ route.paths := by
    split at h
    · cases h
    · cases h
    · exact List.mem_of_mem_filter h
  -- no path fails its check
  rw [List.any_eq_true] at hbad
  intro hnil
  refine hbad ⟨path, hmem, ?_⟩
  simp [checkPath, hnil]

theorem ne_nil_of_mem_pathsOf {us : PublicKey E} {ldk : Ldk E} {route : Option (Route E)}
    {path : List (RouteHop E)} (h : path ∈ pathsOf us ldk route) : path ≠ [] := by
  cases route with
  | none => cases h
  | some route => exact ne_nil_of_mem_sentPaths h

theorem ne_nil_of_mem_payInternal {us : PublicKey E} {ldk : Ldk E}
    {paymentSecret : Option (List UInt8)} {expired : Bool} {payee : PublicKey E}
    {hints : List (List (RouteHintHop E))} {hash : List UInt8} {cache : PaymentCache}
    {path : List (RouteHop E)}
    (h : path ∈ (payInternal us ldk paymentSecret expired payee hints hash cache).2.1) :
    path ≠ [] := by
  rw [payInternal] at h
  by_cases hexp : expired
  · rw [if_pos hexp] at h
    cases h
  rw [if_neg hexp] at h
  cases hroute : ldk.router payee hints with
  | none =>
    rw [hroute] at h
    cases h
  | some route =>
    rw [hroute] at h
    have hcount : isRetryableNow ((cache.lookup hash).getD 0 + 1) = false := by
      simp [isRetryableNow, maxRetryCount]
    dsimp only at h
    rw [hcount] at h
    split at h <;> exact ne_nil_of_mem_sentPaths h

theorem ne_nil_of_mem_payCached {us : PublicKey E} {ldk : Ldk E}
    {paymentSecret : Option (List UInt8)} {expired : Bool} {payee : PublicKey E}
    {hints : List (List (RouteHintHop E))} {hash : List UInt8} {cache : PaymentCache}
    {path : List (RouteHop E)}
    (h : path ∈ (payCached us ldk paymentSecret expired payee hints hash cache).2.1) :
    path ≠ [] := by
  rw [payCached] at h
  by_cases hmem : hash ∈ cache
  · rw [if_pos hmem] at h
    cases h
  rw [if_neg hmem] at h
  have hpath : path ∈ (payInternal us ldk paymentSecret expired payee hints hash
      (cache.insert hash 0)).2.1 := by
    split at h <;> rename_i heq <;> rw [heq] <;> exact h
  exact ne_nil_of_mem_payInternal hpath

theorem ne_nil_of_mem_payInvoice {us : PublicKey E} {ldk : Ldk E} {invoice : Invoice E}
    {cache : PaymentCache} {path : List (RouteHop E)}
    (h : path ∈ (payInvoice us ldk invoice cache).2.1) : path ≠ [] := by
  rw [payInvoice] at h
  by_cases hamount : invoice.amountMsat = none
  · rw [if_pos hamount] at h
    cases h
  · rw [if_neg hamount] at h
    exact ne_nil_of_mem_payCached h

/-- A probe touches the entry of its own hash only, and only if it finds a route. -/
theorem probe_pending {us : PublicKey E} {router : Router E}
    {sendAlongPath : List (RouteHop E) → PathResult} {preimage hash : List UInt8}
    {pubkeyStr channelIdStr pubkeyGuess : Text} {pending pending' : PaymentInfoStorage}
    {result : Except ProbeError (Route E)} (h : probe us router sendAlongPath preimage hash
      pubkeyStr channelIdStr pubkeyGuess pending = some (pending', result)) :
    pending' = pending ∨
      ((probeRoute router pubkeyStr channelIdStr pubkeyGuess).isSome ∧
        ∀ hash' ∈ pending', hash' = hash ∨ hash' ∈ pending) := by
  rw [probe] at h
  rw [probeRoute]
  split at h
  · cases h
  rename_i source hsource
  rw [hsource, Option.bind_some]
  split at h
  · cases h
    exact Or.inl rfl
  rename_i channelId hchannel
  rw [hchannel, Option.bind_some]
  split at h
  · cases h
    exact Or.inl rfl
  rename_i route hroute
  rw [hroute]
  refine Or.inr ⟨rfl, fun hash' hmem => ?_⟩
  dsimp only at h
  split at h
  · cases h
    exact AList.mem_insert _ |>.mp hmem
  · cases h
    exact AList.mem_insert _ |>.mp (AList.mem_erase.mp hmem).2

/-- **What holds after any run.**  The pending payments are probes, and every path that was
sent has a hop. -/
structure Payments.Consistent (probed : List (List UInt8)) (node : Payments E) : Prop where
  pending_probed : ∀ hash ∈ node.pendingPayments, hash ∈ probed
  sent_ne_nil : ∀ hash path, (hash, path) ∈ node.sent → path ≠ []

theorem Payments.Consistent.send {probed : List (List UInt8)} {node : Payments E}
    (h : node.Consistent probed) (hash : List UInt8) {paths : List (List (RouteHop E))}
    (hpaths : ∀ path ∈ paths, path ≠ []) : (node.send hash paths).Consistent probed := by
  refine ⟨h.pending_probed, fun hash' path hmem => ?_⟩
  rcases List.mem_append.mp hmem with hold | hnew
  · exact h.sent_ne_nil hash' path hold
  · obtain ⟨path', hpath', heq⟩ := List.mem_map.mp hnew
    obtain ⟨-, rfl⟩ := Prod.mk.inj heq
    exact hpaths _ hpath'

theorem Payments.Consistent.step {us : PublicKey E} {probed : List (List UInt8)}
    {node node' : Payments E} {act : Act E} (h : node.Consistent probed)
    (hstep : node.step us act = some node') : node'.Consistent (probed ++ act.probedHash.toList) := by
  have hgrown : node.Consistent (probed ++ act.probedHash.toList) :=
    ⟨fun hash hmem => List.mem_append_left _ (h.pending_probed hash hmem), h.sent_ne_nil⟩
  cases act with
  | probe ldk preimage hash pubkeyStr channelIdStr pubkeyGuess =>
    obtain ⟨⟨pending', result⟩, hprobe, rfl⟩ := Option.map_eq_some_iff.mp hstep
    refine Consistent.send ?_ hash fun path hpath => ne_nil_of_mem_pathsOf hpath
    refine ⟨fun hash' hmem => ?_, h.sent_ne_nil⟩
    rcases probe_pending hprobe with rfl | ⟨hroute, hpending⟩
    · exact hgrown.pending_probed hash' hmem
    · rcases hpending hash' hmem with rfl | hold
      · obtain ⟨route, hroute⟩ := Option.isSome_iff_exists.mp hroute
        simp [Act.probedHash, hroute]
      · exact hgrown.pending_probed hash' hold
  | sendFakePayment ldk hash pubkeyStr =>
    cases hstep
    exact hgrown.send hash fun path hpath => ne_nil_of_mem_pathsOf hpath
  | sendPayment ldk invoice =>
    rw [Payments.step] at hstep
    rcases hpay : payInvoice us ldk invoice node.paymentCache with ⟨cache, sent, result⟩
    rw [hpay] at hstep
    obtain rfl := Option.some.inj hstep
    have hsent : (payInvoice us ldk invoice node.paymentCache).2.1 = sent := by rw [hpay]
    refine Consistent.send ?_ _ fun path hpath => ne_nil_of_mem_payInvoice (hsent ▸ hpath)
    exact ⟨hgrown.pending_probed, h.sent_ne_nil⟩
  | keysend ldk hash payee amtMsat =>
    rw [Payments.step] at hstep
    rcases hpay : payPubkey us ldk payee hash node.paymentCache with ⟨cache, sent, result⟩
    rw [hpay] at hstep
    obtain rfl := Option.some.inj hstep
    have hsent : (payPubkey us ldk payee hash node.paymentCache).2.1 = sent := by rw [hpay]
    refine Consistent.send ?_ _ fun path hpath => ne_nil_of_mem_payCached (hsent ▸ hpath)
    exact ⟨hgrown.pending_probed, h.sent_ne_nil⟩
  | paymentPathFailed date info ev =>
    rw [Payments.step] at hstep
    split at hstep
    · dsimp only at hstep
      rw [invoicePayerPathFailed_snd, if_pos rfl] at hstep
      obtain ⟨attempts, -, rfl⟩ := Option.map_eq_some_iff.mp hstep
      exact ⟨hgrown.pending_probed, h.sent_ne_nil⟩
    · cases hstep
  | paymentFailed hash =>
    rw [Payments.step] at hstep
    split at hstep
    · cases hstep
      refine ⟨fun hash' hmem => hgrown.pending_probed hash' ?_, h.sent_ne_nil⟩
      dsimp only [handlePaymentFailed] at hmem
      split at hmem
      · exact (AList.mem_erase.mp hmem).2
      · exact hmem
    · cases hstep
  | paymentSent preimage hash =>
    rw [Payments.step] at hstep
    split at hstep
    · cases hstep
      exact ⟨hgrown.pending_probed, h.sent_ne_nil⟩
    · cases hstep
  | restart =>
    cases hstep
    exact ⟨fun hash hmem => absurd hmem (AList.notMem_empty hash), h.sent_ne_nil⟩

theorem Payments.Consistent.run {us : PublicKey E} {attempts : List Attempt} {acts : List (Act E)}
    {node : Payments E} (h : (Payments.start attempts).run us acts = some node) :
    node.Consistent (probeHashes acts) := by
  induction acts using List.reverseRecOn generalizing node with
  | nil =>
    cases h
    exact ⟨fun hash hmem => absurd hmem (AList.notMem_empty hash), fun _ _ hmem => nomatch hmem⟩
  | append_singleton acts act ih =>
    rw [Payments.run_append] at h
    obtain ⟨before, hbefore, hstep⟩ := Option.bind_eq_some_iff.mp h
    rw [Payments.run_cons] at hstep
    obtain ⟨after, hstep, hafter⟩ := Option.bind_eq_some_iff.mp hstep
    cases hafter
    have hcons := (ih hbefore).step hstep
    rw [probeHashes, List.filterMap_append]
    cases hhash : act.probedHash <;> simpa [probeHashes, hhash] using hcons

/-! ## Which failures are recorded -/

/-- Failures alone change the table, and each is handled. -/
theorem Payments.step_attempts {us : PublicKey E} {node node' : Payments E} {act : Act E}
    (h : node.step us act = some node') : node'.attempts = node.attempts ∨
      ∃ date info ev, act = .paymentPathFailed date info ev := by
  cases act with
  | paymentPathFailed date info ev => exact Or.inr ⟨date, info, ev, rfl⟩
  | probe ldk preimage hash pubkeyStr channelIdStr pubkeyGuess =>
    obtain ⟨result, -, rfl⟩ := Option.map_eq_some_iff.mp h
    exact Or.inl rfl
  | sendFakePayment ldk hash pubkeyStr | sendPayment ldk invoice | keysend ldk hash payee amtMsat
  | restart =>
    cases h
    exact Or.inl rfl
  | paymentFailed hash | paymentSent preimage hash =>
    rw [Payments.step] at h
    split at h
    · cases h
      exact Or.inl rfl
    · cases h

theorem Payments.step_paymentPathFailed {us : PublicKey E} {node node' : Payments E} {date : Nat}
    {info : RetryInfo} {ev : PaymentPathFailed E}
    (h : node.step us (.paymentPathFailed date info ev) = some node') :
    handlePaymentPathFailed date ev node.attempts = some node'.attempts ∧
      node'.sent = node.sent := by
  rw [Payments.step] at h
  split at h
  · dsimp only at h
    rw [invoicePayerPathFailed_snd, if_pos rfl] at h
    obtain ⟨attempts, hattempts, rfl⟩ := Option.map_eq_some_iff.mp h
    exact ⟨hattempts, rfl⟩
  · cases h

/-- Whose payment it was makes no difference. -/
theorem Payments.attempts_eq_iff {us : PublicKey E} {node node' : Payments E} {date : Nat}
    {info : RetryInfo} {ev : PaymentPathFailed E}
    (h : node.step us (.paymentPathFailed date info ev) = some node') :
    node'.attempts = node.attempts ↔ ev.path.length ≤ 1 ∨ ev.errorCode = none := by
  obtain ⟨heq, hbare⟩ | ⟨front, hop, last, code, hpath, hcode, hrow⟩ :=
    handlePaymentPathFailed_eq (Payments.step_paymentPathFailed h).1
  · exact ⟨fun _ => hbare, fun _ => heq⟩
  · constructor
    · intro heq
      rw [hrow] at heq
      have hlen := congrArg List.length heq
      rw [List.length_append, List.length_singleton] at hlen
      omega
    · rintro (hshort | hnone)
      · rw [hpath, List.length_append] at hshort
        have htwo : [hop, last].length = 2 := rfl
        omega
      · rw [hcode] at hnone
        cases hnone

/-- **The handler never meets an empty path**, so after any run it takes up the failure of
every path that was sent. -/
theorem Payments.exists_step_paymentPathFailed {us : PublicKey E} {attempts : List Attempt}
    {acts : List (Act E)} {node : Payments E}
    (h : (Payments.start attempts).run us acts = some node) (date : Nat) (info : RetryInfo)
    {ev : PaymentPathFailed E} (hsent : (ev.paymentHash, ev.path) ∈ node.sent) :
    ∃ node', node.step us (.paymentPathFailed date info ev) = some node' := by
  rw [Payments.step, if_pos hsent]
  dsimp only
  rw [invoicePayerPathFailed_snd, if_pos rfl]
  cases hpath : ev.path with
  | nil => exact absurd hpath ((Consistent.run h).sent_ne_nil _ _ hsent)
  | cons hop rest =>
    rw [handlePaymentPathFailed, hpath]
    exact ⟨_, rfl⟩

/-- In the run, a row is inserted only for the failure of a payment that a call of `probe` put
into the pending payments. -/
def OnlyProbesRecorded (us : PublicKey E) (attempts : List Attempt) (acts : List (Act E)) : Prop :=
  ∀ before act after node node', acts = before ++ act :: after →
    (Payments.start attempts).run us before = some node → node.step us act = some node' →
    node'.attempts ≠ node.attempts →
    ∃ date info ev, act = .paymentPathFailed date info ev ∧ ev.paymentHash ∈ probeHashes before

/-- In the run, every failure of a payment that is no probe is of a path with one hop, or has no
error code. -/
def OthersFailBare (acts : List (Act E)) : Prop :=
  ∀ before date info ev after, acts = before ++ .paymentPathFailed date info ev :: after →
    ev.paymentHash ∉ probeHashes before → ev.path.length ≤ 1 ∨ ev.errorCode = none

/-- **Only probes are recorded, in exactly the runs where other payments fail on one-hop paths or
without a code.**  For every run of commands and events in any order. -/
theorem only_probes_recorded_iff {us : PublicKey E} {attempts : List Attempt}
    {acts : List (Act E)} {final : Payments E}
    (hrun : (Payments.start attempts).run us acts = some final) :
    OnlyProbesRecorded us attempts acts ↔ OthersFailBare acts := by
  constructor
  · intro honly before date info ev after hacts hother
    rw [hacts, Payments.run_append] at hrun
    obtain ⟨node, hbefore, hrest⟩ := Option.bind_eq_some_iff.mp hrun
    rw [Payments.run_cons] at hrest
    obtain ⟨node', hstep, -⟩ := Option.bind_eq_some_iff.mp hrest
    by_contra hbare
    have hgrew : node'.attempts ≠ node.attempts := mt (Payments.attempts_eq_iff hstep).mp hbare
    obtain ⟨_, _, _, hact, hprobe⟩ := honly before _ after node node' hacts hbefore hstep hgrew
    cases hact
    exact hother hprobe
  · intro hbare before act after node node' hacts hbefore hstep hgrew
    obtain heq | ⟨date, info, ev, rfl⟩ := Payments.step_attempts hstep
    · exact absurd heq hgrew
    · refine ⟨date, info, ev, rfl, ?_⟩
      by_contra hother
      exact hgrew ((Payments.attempts_eq_iff hstep).mpr
        (hbare before date info ev after hacts hother))

/-! ## Two payments -/

/-- A router that always gives the one path, and channels that take it. -/
def onePath (path : List (RouteHop sampleKeys)) : Ldk sampleKeys where
  router _ _ := some ⟨[path]⟩
  sendAlongPath _ := .sent

/-- The failure of the payment with the given hash, not retried. -/
def failed (hash : List UInt8) (path : List (RouteHop sampleKeys)) (code : UInt16) :
    Act sampleKeys :=
  .paymentPathFailed 0 ⟨true, false, true, false⟩ ⟨hash, path, some code⟩

/-- From node 1 over channel 12 to the guess. -/
def probedPath : List (RouteHop sampleKeys) := [⟨firstKey, 10⟩, ⟨guessKey, 12⟩]

/-- To node 2 over the channels of `publicNetwork`. -/
def publicPath : List (RouteHop sampleKeys) := [⟨firstKey, 10⟩, ⟨secondKey, 11⟩]

/-- We have a channel with node 1, and node 1 has a public one with node 2. -/
def publicNetwork : Network sampleKeys where
  us := ourKey
  channels := [⟨firstKey, secondKey, 11⟩]
  firstHops := [⟨firstKey, 10⟩]

theorem sentPaths_onePath {us : PublicKey sampleKeys} {path : List (RouteHop sampleKeys)}
    (h : checkPath us path) : sentPaths us (onePath path).sendAlongPath none ⟨[path]⟩ = [path] := by
  simp [sentPaths, sendPayment, onePath, h]

theorem checkPath_publicPath : checkPath ourKey publicPath := by
  simp [checkPath, publicPath, firstKey_ne_ourKey]

theorem checkPath_probedPath : checkPath ourKey probedPath := by
  simp [checkPath, probedPath, firstKey_ne_ourKey]

/-- The failure of a path that was sent adds its row. -/
theorem exists_step_failed {us : PublicKey sampleKeys} {acts : List (Act sampleKeys)}
    {node : Payments sampleKeys} (h : (Payments.start []).run us acts = some node)
    {hash : List UInt8} {hop last : RouteHop sampleKeys}
    (hsent : (hash, [hop, last]) ∈ node.sent) (code : UInt16) :
    ∃ node', node.step us (failed hash [hop, last] code) = some node' ∧
      node'.attempts = node.attempts ++ [⟨hop.pubkey.toText, last.pubkey.toText,
        decimal last.shortChannelId.toNat, verdictOf code, 0⟩] := by
  obtain ⟨node', hstep⟩ : ∃ node', node.step us (failed hash [hop, last] code) = some node' :=
    Payments.exists_step_paymentPathFailed h 0 ⟨true, false, true, false⟩ hsent
  refine ⟨node', hstep, ?_⟩
  have hrow := handlePaymentPathFailed_append 0 hash [] hop last code node.attempts
  rw [List.nil_append, (Payments.step_paymentPathFailed hstep).1] at hrow
  exact Option.some.inj hrow

/-- A probe of channel 12 of node 1. -/
def probeChannel : Act sampleKeys :=
  .probe (onePath probedPath) [] [1] firstKey.toText (decimal 12) guessKey.toText

/-- A fake payment to node 2. -/
def fakePayment : Act sampleKeys :=
  .sendFakePayment (onePath publicPath) [2] secondKey.toText

theorem probeRoute_probeChannel : probeRoute (onePath probedPath).router firstKey.toText
    (decimal 12) guessKey.toText = some ⟨[probedPath]⟩ := by
  have hscid : parseUnsigned maxU64 (decimal 12) = some 12 := parseUnsigned_decimal (by decide)
  simp [probeRoute, hscid, findRoutes, onePath]

theorem exists_step_probeChannel : ∃ pending,
    (Payments.start []).step ourKey probeChannel =
      some ({ Payments.start [] with pendingPayments := pending }.send [1] [probedPath]) := by
  have hscid : parseUnsigned maxU64 (decimal 12) = some 12 := parseUnsigned_decimal (by decide)
  have hroute : ∀ hints, findRoutes (onePath probedPath).router guessKey.toText hints =
      some ⟨[probedPath]⟩ := by
    intro hints
    rw [findRoutes, PublicKey.fromText_toText]
    rfl
  have hsend : sendPayment ourKey (onePath probedPath).sendAlongPath none ⟨[probedPath]⟩ =
      .ok () := by
    simp [sendPayment, checkPath_probedPath, onePath]
  rw [probeChannel, Payments.step, probeRoute_probeChannel, pathsOf,
    sentPaths_onePath checkPath_probedPath, probe, PublicKey.fromText_toText, hscid]
  simp only [hroute, hsend]
  exact ⟨_, rfl⟩

theorem step_fakePayment (node : Payments sampleKeys) :
    node.step ourKey fakePayment = some (node.send [2] [publicPath]) := by
  have hroute : findRoutes (onePath publicPath).router secondKey.toText [] =
      some ⟨[publicPath]⟩ := by
    simp [findRoutes, onePath]
  rw [fakePayment, Payments.step, hroute, pathsOf, sentPaths_onePath checkPath_publicPath]

/-- A fake payment that fails without a code. -/
def failedBare : Act sampleKeys :=
  .paymentPathFailed 0 ⟨true, false, true, false⟩ ⟨[2], publicPath, none⟩

/-- A probe and a fake payment both fail, and the row is of the probe. -/
def probeAndFake : List (Act sampleKeys) :=
  [probeChannel, fakePayment, failedBare, failed [1] probedPath 0x400a]

/-- The failure of the probe is recorded, and nothing else is. -/
theorem only_probes_recorded_probe : ∃ final,
    (Payments.start []).run ourKey probeAndFake = some final ∧ final.attempts ≠ [] ∧
      OnlyProbesRecorded ourKey [] probeAndFake := by
  obtain ⟨pending, hprobe⟩ := exists_step_probeChannel
  have hsent : (Payments.start []).run ourKey [probeChannel, fakePayment] = some
      (({ Payments.start [] with pendingPayments := pending }.send [1] [probedPath]).send [2]
        [publicPath]) := by
    rw [Payments.run_cons, hprobe, Option.bind_some, Payments.run_singleton, step_fakePayment]
  obtain ⟨node, hbare⟩ : ∃ node, Payments.step ourKey _ failedBare = some node :=
    Payments.exists_step_paymentPathFailed hsent 0 ⟨true, false, true, false⟩
      (Payments.mem_send (List.mem_singleton_self _))
  have hbefore : (Payments.start []).run ourKey [probeChannel, fakePayment, failedBare] =
      some node := by
    rw [show [probeChannel, fakePayment, failedBare] = [probeChannel, fakePayment] ++ [failedBare]
      from rfl, Payments.run_append, hsent, Option.bind_some, Payments.run_singleton]
    exact hbare
  have hprobed : ([1], probedPath) ∈ node.sent := by
    rw [(Payments.step_paymentPathFailed hbare).2]
    exact List.mem_append_left _ (Payments.mem_send (List.mem_singleton_self _))
  obtain ⟨final, hfailed, hrows⟩ := exists_step_failed hbefore hprobed 0x400a
  have hrun : (Payments.start []).run ourKey probeAndFake = some final := by
    rw [show probeAndFake = [probeChannel, fakePayment, failedBare] ++
      [failed [1] probedPath 0x400a] from rfl, Payments.run_append, hbefore, Option.bind_some,
      Payments.run_singleton]
    exact hfailed
  refine ⟨final, hrun, by simp [hrows], (only_probes_recorded_iff hrun).mpr ?_⟩
  intro before date info ev after hacts hother
  rcases before with _ | ⟨_, _ | ⟨_, _ | ⟨_, _ | ⟨_, before⟩⟩⟩⟩
  · cases hacts
  · cases hacts
  · -- the fake payment fails without a code
    cases hacts
    exact Or.inr rfl
  · -- the other failure is the probe's
    cases hacts
    simp [probeHashes, probeChannel, Act.probedHash, probeRoute_probeChannel] at hother
  · simp [probeAndFake] at hacts

/-- A fake payment over two public hops is recorded as a probe of channel 11 of node 1. -/
theorem fake_payment_recorded : ∃ final,
    Leads publicNetwork.Known publicNetwork.us publicPath secondKey ∧
      (Payments.start []).run publicNetwork.us [fakePayment, failed [2] publicPath 0x100c] =
        some final ∧
      final.attempts = [⟨firstKey.toText, secondKey.toText, decimal 11,
        .feeInsufficient, 0⟩] ∧
      probeHashes [fakePayment, failed [2] publicPath 0x100c] = [] ∧
      ¬ OnlyProbesRecorded publicNetwork.us [] [fakePayment, failed [2] publicPath 0x100c] := by
  have hbefore := step_fakePayment (Payments.start [])
  rw [← Payments.run_singleton] at hbefore
  obtain ⟨final, hfailed, hrows⟩ := exists_step_failed hbefore
    (Payments.mem_send (List.mem_singleton_self _)) 0x100c
  refine ⟨final, ⟨Or.inr ⟨rfl, List.mem_singleton_self _⟩, Or.inl (List.mem_singleton_self _), rfl⟩,
    ?_, hrows, rfl, fun honly => ?_⟩
  · show (Payments.start []).run ourKey _ = _
    rw [Payments.run_cons, step_fakePayment, Option.bind_some, Payments.run_cons]
    exact congrArg (Option.bind · _) hfailed
  · obtain ⟨_, _, _, -, hprobe⟩ := honly [fakePayment] _ [] _ final rfl hbefore hfailed
      (by simp [hrows])
    cases hprobe

end HiddenLightning
