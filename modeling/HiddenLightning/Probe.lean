import HiddenLightning.Attempts

/-! # Sending a probe

`probe` (`probe.rs`) asks the router for a route to a guessed node, with a route hint
that says: from the target, over the channel to be tested, to the guess.  It notes the
payment in the map of pending payments and sends it.  If the route ends with the hinted
channel, the way the payment fails tells whether the target has that channel.

The router (`find_route`) is a parameter.  Of it only this is assumed (`ValidRoute`): its
paths lead from us to the payee over public channels, our own channels and the hints, and
reach the payee at their end only.  The checks that `send_payment` makes on a route are
translated; what becomes of a path that is handed on to a peer is a parameter too.

Nothing makes the router use the hint.  `probe_tests_channel_iff` gives the networks in
which every probe that is sent tests the channel it was asked for.
-/
namespace HiddenLightning
open Numerals

variable {E : Secp256k1}

/-! ## Routes -/

variable (E) in
/-- A directed channel of the public graph. -/
structure Channel where
  source : PublicKey E
  target : PublicKey E
  shortChannelId : UInt64

variable (E) in
/-- What the router knows: the public channels, who we are, and our own channels. -/
structure Network where
  us : PublicKey E
  channels : List (Channel E)
  firstHops : List (RouteHop E)

variable (E) in
/-- `RouteHintHop`: the fees are a base in msat and a proportional part in millionths. -/
structure RouteHintHop where
  srcNodeId : PublicKey E
  shortChannelId : UInt64
  fees : Nat × Nat
  cltvExpiryDelta : Nat
  htlcMinimumMsat : Option Nat
  htlcMaximumMsat : Option Nat

variable (E) in
/-- A route: the paths a payment is split over. -/
structure Route where
  paths : List (List (RouteHop E))

/-- A channel known to the router from `u` to `v`. -/
def Network.Known (net : Network E) (u v : PublicKey E) (scid : UInt64) : Prop :=
  ⟨u, v, scid⟩ ∈ net.channels ∨ (u = net.us ∧ ⟨v, scid⟩ ∈ net.firstHops)

/-- A channel that a hint, leading to `payee`, adds. -/
def hinted (payee : PublicKey E) : List (RouteHintHop E) → PublicKey E → PublicKey E → UInt64 → Prop
  | [], _, _, _ => False
  | [hop], u, v, scid => u = hop.srcNodeId ∧ v = payee ∧ scid = hop.shortChannelId
  | hop :: next :: hops, u, v, scid =>
    (u = hop.srcNodeId ∧ v = next.srcNodeId ∧ scid = hop.shortChannelId) ∨
      hinted payee (next :: hops) u v scid

/-- A channel the router may use on the way to `payee`. -/
def Network.Usable (net : Network E) (payee : PublicKey E) (hints : List (List (RouteHintHop E)))
    (u v : PublicKey E) (scid : UInt64) : Prop :=
  net.Known u v scid ∨ ∃ hint ∈ hints, hinted payee hint u v scid

/-- The hops lead from `u` to `v`. -/
def Leads (edge : PublicKey E → PublicKey E → UInt64 → Prop) :
    PublicKey E → List (RouteHop E) → PublicKey E → Prop
  | u, [], v => u = v
  | u, hop :: hops, v => edge u hop.pubkey hop.shortChannelId ∧ Leads edge hop.pubkey hops v

/-- **What is assumed of the router's routes.** -/
structure ValidRoute (net : Network E) (payee : PublicKey E)
    (hints : List (List (RouteHintHop E))) (route : Route E) : Prop where
  leads : ∀ path ∈ route.paths, Leads (net.Usable payee hints) net.us path payee
  payee_last : ∀ path ∈ route.paths, ∀ hop ∈ path.dropLast, hop.pubkey ≠ payee

variable (E) in
/-- `find_route`, as `find_routes` calls it. -/
abbrev Router := PublicKey E → List (List (RouteHintHop E)) → Option (Route E)

/-- The router keeps to its contract. -/
def Router.Sound (net : Network E) (router : Router E) : Prop :=
  ∀ payee hints route, router payee hints = some route → ValidRoute net payee hints route

/-- `find_routes`; `none` for its `LightningError`s. -/
def findRoutes (router : Router E) (payeePubkey : Text)
    (privateRoutes : List (List (RouteHintHop E))) : Option (Route E) :=
  match PublicKey.fromText E payeePubkey with
  | none => none
  | some theirPubkey => router theirPubkey privateRoutes

/-! ## Sending -/

/-- What `send_payment_along_path` returns. -/
inductive PathResult where
  | sent
  | monitorUpdateFailed
  | failed
deriving DecidableEq

/-- `PaymentSendFailure`. -/
inductive PaymentSendFailure where
  | parameterError
  | pathParameterError
  | allFailedRetrySafe
  | partialFailure
deriving DecidableEq

/-- The check of a path: 1 to 20 hops, and through us at its end only. -/
def checkPath (us : PublicKey E) (path : List (RouteHop E)) : Bool :=
  1 ≤ path.length ∧ path.length ≤ 20 ∧ ∀ hop ∈ path.dropLast, hop.pubkey ≠ us

/-- `ChannelManager::send_payment_internal`: more than one path needs a payment secret. -/
def sendPayment (us : PublicKey E) (sendAlongPath : List (RouteHop E) → PathResult)
    (paymentSecret : Option (List UInt8)) (route : Route E) : Except PaymentSendFailure Unit :=
  if route.paths.length < 1 then .error .parameterError
  else if paymentSecret.isNone && 1 < route.paths.length then .error .parameterError
  else if route.paths.any fun path => !checkPath us path then .error .pathParameterError
  else
    let results := route.paths.map sendAlongPath
    let hasErr := results.any fun r => r ≠ .sent
    -- a failed monitor update counts as both, since the HTLC may have gone out
    let hasOk := results.any fun r => r ≠ .failed
    if hasErr && hasOk then .error .partialFailure
    else if hasErr then .error .allFailedRetrySafe
    else .ok ()

/-- `HTLCStatus`. -/
inductive HTLCStatus where
  | pending
  | succeeded
  | failed
deriving DecidableEq

/-- `PaymentInfo`. -/
structure PaymentInfo where
  preimage : Option (List UInt8)
  secret : Option (List UInt8)
  status : HTLCStatus
  amtMsat : Option Nat

/-- `PaymentInfoStorage`: payments by payment hash. -/
abbrev PaymentInfoStorage := AList fun _ : List UInt8 => PaymentInfo

/-- The errors of `probe`. -/
inductive ProbeError where
  | notANumber
  | noRoute
deriving DecidableEq

/-- The largest `u64`. -/
def maxU64 : Nat := 2 ^ 64 - 1

/-- The hint of a probe: from the target, over the channel, with the usual fee and cltv. -/
def probeHint (source : PublicKey E) (channelId : UInt64) : List (List (RouteHintHop E)) :=
  [[{ srcNodeId := source
      shortChannelId := channelId
      fees := (1000, 1)
      cltvExpiryDelta := 40
      htlcMinimumMsat := none
      htlcMaximumMsat := none }]]

/-- `probe`: the pending payments afterwards, and the result with the route that was sent;
`none` when it panics.  `hash` is the hash of the random `preimage`. -/
def probe (us : PublicKey E) (router : Router E) (sendAlongPath : List (RouteHop E) → PathResult)
    (preimage hash : List UInt8) (pubkeyStr channelIdStr pubkeyGuess : Text)
    (pending : PaymentInfoStorage) : Option (PaymentInfoStorage × Except ProbeError (Route E)) :=
  match PublicKey.fromText E pubkeyStr with
  | none => none
  | some source =>
    match parseUnsigned maxU64 channelIdStr with
    | none => some (pending, .error .notANumber)
    | some channelId =>
      match findRoutes router pubkeyGuess (probeHint source (UInt64.ofNat channelId)) with
      | none => some (pending, .error .noRoute)
      | some route =>
        let inserted := pending.insert hash
          { preimage := some preimage, secret := none, status := .pending, amtMsat := some 10000 }
        match sendPayment us sendAlongPath none route with
        | .ok _ => some (inserted, .ok route)
        | .error _ => some (inserted.erase hash, .error .noRoute)

/-! ## What a sent probe was -/

theorem sendPayment_ok {us : PublicKey E} {sendAlongPath : List (RouteHop E) → PathResult}
    {route : Route E} (h : sendPayment us sendAlongPath none route = .ok ()) :
    ∃ path, route.paths = [path] ∧ path ≠ [] ∧ path.length ≤ 20 ∧
      ∀ hop ∈ path.dropLast, hop.pubkey ≠ us := by
  rw [sendPayment] at h
  split at h
  · cases h
  split at h
  · cases h
  rename_i hpos hone
  rw [Option.isNone_none, Bool.true_and, decide_eq_true_eq] at hone
  split at h
  · cases h
  rename_i hcheck
  obtain ⟨path, hpath⟩ := List.length_eq_one_iff.mp (show route.paths.length = 1 by omega)
  rw [hpath] at hcheck
  simp only [List.any_cons, List.any_nil, Bool.or_false, Bool.not_eq_true', Bool.not_eq_false,
    checkPath, decide_eq_true_eq] at hcheck
  refine ⟨path, hpath, ?_, hcheck.2.1, hcheck.2.2⟩
  exact List.length_pos_iff.mp hcheck.1

/-- **Everything a probe that returns `Ok` can have been.** -/
theorem probe_ok {us : PublicKey E} {router : Router E}
    {sendAlongPath : List (RouteHop E) → PathResult} {preimage hash : List UInt8}
    {pubkeyStr channelIdStr pubkeyGuess : Text} {pending pending' : PaymentInfoStorage}
    {route : Route E} (h : probe us router sendAlongPath preimage hash pubkeyStr channelIdStr
      pubkeyGuess pending = some (pending', .ok route)) :
    ∃ source channelId guess, PublicKey.fromText E pubkeyStr = some source ∧
      parseUnsigned maxU64 channelIdStr = some channelId ∧
      PublicKey.fromText E pubkeyGuess = some guess ∧
      router guess (probeHint source (UInt64.ofNat channelId)) = some route ∧
      sendPayment us sendAlongPath none route = .ok () ∧
      pending' = pending.insert hash
        { preimage := some preimage, secret := none, status := .pending, amtMsat := some 10000 } := by
  rw [probe] at h
  split at h
  · cases h
  rename_i source hsource
  split at h
  · cases h
  rename_i channelId hchannel
  split at h
  · cases h
  rename_i route' hroute
  dsimp only at h
  split at h
  · rename_i hsend
    cases h
    rw [findRoutes] at hroute
    split at hroute
    · cases hroute
    · rename_i guess hguess
      exact ⟨source, channelId, guess, hsource, hchannel, hguess, hroute, hsend, rfl⟩
  · cases h

/-! ## The networks in which a probe tests its channel -/

/-- From us to `u` in `n` hops over known channels, passing through neither the guess nor us. -/
inductive ReachIn (net : Network E) (guess : PublicKey E) : Nat → PublicKey E → Prop
  | here : ReachIn net guess 0 net.us
  | hop {n : Nat} {u v : PublicKey E} {scid : UInt64} (h : ReachIn net guess n u)
      (hknown : net.Known u v scid) (hguess : v ≠ guess) (hus : v ≠ net.us) :
      ReachIn net guess (n + 1) v

/-- **Only the hinted channel leads to the guess.**  We are not the target, and no channel known
to the router leads to the guess from a node that we reach in fewer than 20 hops, unless it is
the channel to be tested. -/
def OnlyHintLeads (net : Network E) (target : PublicKey E) (scid : UInt64) (guess : PublicKey E) :
    Prop :=
  target ≠ net.us ∧ ∀ n u s, n < 20 → ReachIn net guess n u → net.Known u guess s →
    u = target ∧ s = scid

theorem leads_append {edge : PublicKey E → PublicKey E → UInt64 → Prop} {u v : PublicKey E}
    {hops hops' : List (RouteHop E)} :
    Leads edge u (hops ++ hops') v ↔ ∃ w, Leads edge u hops w ∧ Leads edge w hops' v := by
  induction hops generalizing u with
  | nil => simp [Leads]
  | cons hop hops ih => simp [Leads, ih, and_assoc]

theorem leads_singleton {edge : PublicKey E → PublicKey E → UInt64 → Prop} {u v : PublicKey E}
    {hop : RouteHop E} :
    Leads edge u [hop] v ↔ edge u hop.pubkey hop.shortChannelId ∧ hop.pubkey = v := Iff.rfl

theorem usable_probeHint {net : Network E} {guess source u v : PublicKey E}
    {channelId scid : UInt64} : net.Usable guess (probeHint source channelId) u v scid ↔
      net.Known u v scid ∨ (u = source ∧ v = guess ∧ scid = channelId) := by
  simp [Network.Usable, probeHint, hinted]

/-- The nodes before the last hop are reached over known channels, since the hint ends at the
guess. -/
theorem ReachIn.of_leads {net : Network E} {guess source : PublicKey E} {channelId : UInt64}
    {hops : List (RouteHop E)} (havoid : ∀ hop ∈ hops, hop.pubkey ≠ guess ∧ hop.pubkey ≠ net.us)
    {v : PublicKey E} (h : Leads (net.Usable guess (probeHint source channelId)) net.us hops v) :
    ReachIn net guess hops.length v := by
  induction hops using List.reverseRecOn generalizing v with
  | nil =>
    cases h
    exact .here
  | append_singleton hops hop ih =>
    obtain ⟨u, hu, hedge, rfl⟩ := leads_append.mp h
    obtain ⟨hguess, hus⟩ := havoid hop (by simp)
    have hreach := ih (fun hop' hhop' => havoid hop' (by simp [hhop'])) hu
    rcases usable_probeHint.mp hedge with hknown | ⟨-, hv, -⟩
    · rw [List.length_append]
      exact hreach.hop hknown hguess hus
    · exact absurd hv hguess

/-- And every node reached is the end of such hops. -/
theorem ReachIn.exists_leads {net : Network E} {guess v : PublicKey E} {n : Nat}
    (h : ReachIn net guess n v) (source : PublicKey E) (channelId : UInt64) :
    ∃ hops : List (RouteHop E), hops.length = n ∧
      (∀ hop ∈ hops, hop.pubkey ≠ guess ∧ hop.pubkey ≠ net.us) ∧
      Leads (net.Usable guess (probeHint source channelId)) net.us hops v := by
  induction h with
  | here => exact ⟨[], rfl, by simp, rfl⟩
  | @hop n u v scid _ hknown hguess hus ih =>
    obtain ⟨hops, hlen, havoid, hleads⟩ := ih
    refine ⟨hops ++ [⟨v, scid⟩], by simp [hlen], fun hop hhop => ?_, ?_⟩
    · rcases List.mem_append.mp hhop with hhop | hhop
      · exact havoid hop hhop
      · rw [List.mem_singleton.mp hhop]
        exact ⟨hguess, hus⟩
    · exact leads_append.mpr ⟨u, hleads, leads_singleton.mpr
        ⟨usable_probeHint.mpr (Or.inl hknown), rfl⟩⟩

/-- The path tests channel `scid` of `target`: its last two hops are the target and, over the
channel, the guess; and a failure of it is recorded for that pair. -/
structure Tests (target : PublicKey E) (scid : UInt64) (guess : PublicKey E)
    (path : List (RouteHop E)) : Prop where
  hops : ∃ front node, path = front ++ [node, ⟨guess, scid⟩] ∧ node.pubkey = target
  recorded : ∀ date hash code attempts, ∃ row,
    handlePaymentPathFailed date ⟨hash, path, some code⟩ attempts = some (attempts ++ [row]) ∧
      row.targetPubkey = target.toText ∧ row.channelId = decimal scid.toNat

theorem Tests.of_hops {target guess : PublicKey E} {scid : UInt64} {front : List (RouteHop E)}
    {node : RouteHop E} (h : node.pubkey = target) :
    Tests target scid guess (front ++ [node, ⟨guess, scid⟩]) where
  hops := ⟨front, node, rfl, h⟩
  recorded date hash code attempts :=
    ⟨_, handlePaymentPathFailed_append date hash front node _ code attempts,
      congrArg PublicKey.toText h, rfl⟩

/-- A path of a probe's payment that the router may return and that passes the checks of
`send_payment`. -/
structure Sendable (net : Network E) (target : PublicKey E) (scid : UInt64) (guess : PublicKey E)
    (path : List (RouteHop E)) : Prop where
  ne_nil : path ≠ []
  length_le : path.length ≤ 20
  avoids_us : ∀ hop ∈ path.dropLast, hop.pubkey ≠ net.us
  payee_last : ∀ hop ∈ path.dropLast, hop.pubkey ≠ guess
  leads : Leads (net.Usable guess (probeHint target scid)) net.us path guess

/-- If only the hinted channel leads to the guess, every path tests it. -/
theorem OnlyHintLeads.tests {net : Network E} {target guess : PublicKey E} {scid : UInt64}
    (h : OnlyHintLeads net target scid guess) {path : List (RouteHop E)}
    (hpath : Sendable net target scid guess path) : Tests target scid guess path := by
  obtain ⟨hne, hlen, hus, hguess, hleads⟩ := hpath
  obtain ⟨hops, last, rfl⟩ := (List.eq_nil_or_concat' path).resolve_left hne
  rw [List.dropLast_concat] at hus hguess
  obtain ⟨u, hu, hedge, hlast⟩ := leads_append.mp hleads
  obtain ⟨pubkey, s⟩ := last
  obtain rfl : pubkey = guess := hlast
  have hreach := ReachIn.of_leads (fun hop hhop => ⟨hguess hop hhop, hus hop hhop⟩) hu
  rw [List.length_append, List.length_singleton] at hlen
  have hlast : u = target ∧ s = scid := by
    rcases usable_probeHint.mp hedge with hknown | ⟨hsource, -, hscid⟩
    · exact h.2 hops.length u s (by omega) hreach hknown
    · exact ⟨hsource, hscid⟩
  obtain ⟨rfl, rfl⟩ := hlast
  -- the target is not us, so there is a hop to it
  obtain rfl | ⟨front, node, rfl⟩ := List.eq_nil_or_concat' hops
  · exact absurd hu.symm h.1
  · obtain ⟨w, -, -, hnode⟩ := leads_append.mp hu
    rw [List.append_assoc]
    exact Tests.of_hops hnode

/-- A known channel that leads to the guess ends a path. -/
theorem ReachIn.sendable {net : Network E} {target guess u : PublicKey E} {scid s : UInt64} {n : Nat}
    (hn : n < 20) (h : ReachIn net guess n u) (hknown : net.Known u guess s) :
    ∃ hops, Sendable net target scid guess (hops ++ [⟨guess, s⟩]) ∧
      Leads (net.Usable guess (probeHint target scid)) net.us hops u := by
  obtain ⟨hops, hlen, havoid, hleads⟩ := h.exists_leads target scid
  refine ⟨hops, ⟨by simp, ?_, ?_, ?_, ?_⟩, hleads⟩
  · rw [List.length_append, List.length_singleton]
    omega
  · rw [List.dropLast_concat]
    exact fun hop hhop => (havoid hop hhop).2
  · rw [List.dropLast_concat]
    exact fun hop hhop => (havoid hop hhop).1
  · exact leads_append.mpr ⟨u, hleads, leads_singleton.mpr
      ⟨usable_probeHint.mpr (Or.inl hknown), rfl⟩⟩

/-- If every path tests the hinted channel, only it leads to the guess. -/
theorem OnlyHintLeads.of_tests {net : Network E} {target guess : PublicKey E} {scid : UInt64}
    (h : ∀ path, Sendable net target scid guess path → Tests target scid guess path) :
    OnlyHintLeads net target scid guess := by
  constructor
  · -- from us the hint alone would be a path of one hop
    rintro rfl
    obtain ⟨front, node, hpath, -⟩ := (h [⟨guess, scid⟩] ⟨by simp, by simp, by simp, by simp,
      usable_probeHint.mpr (Or.inr ⟨rfl, rfl, rfl⟩), rfl⟩).hops
    simpa using congrArg List.length hpath
  · intro n u s hn hreach hknown
    obtain ⟨hops, hsendable, hleads⟩ := hreach.sendable hn hknown
    obtain ⟨front, node, hpath, hnode⟩ := (h _ hsendable).hops
    have hsplit : hops ++ [⟨guess, s⟩] = (front ++ [node]) ++ [⟨guess, scid⟩] := by
      rw [hpath, List.append_assoc]
      rfl
    obtain ⟨rfl, hlast⟩ := List.append_inj' hsplit rfl
    obtain ⟨w, -, -, hu⟩ := leads_append.mp hleads
    refine ⟨?_, ?_⟩
    · rw [← hnode]
      exact hu.symm
    · simpa using hlast

/-- A sendable path is sent by some probe. -/
theorem exists_probe_ok {target guess : PublicKey E} {scid : UInt64}
    {pubkeyStr channelIdStr pubkeyGuess : Text}
    (htarget : PublicKey.fromText E pubkeyStr = some target)
    (hscid : parseUnsigned maxU64 channelIdStr = some scid.toNat)
    (hguess : PublicKey.fromText E pubkeyGuess = some guess) {net : Network E}
    {path : List (RouteHop E)} (hpath : Sendable net target scid guess path) :
    ∃ router : Router E, router.Sound net ∧
      ∃ pending', probe net.us router (fun _ => .sent) [] [] pubkeyStr channelIdStr pubkeyGuess ∅ =
        some (pending', .ok ⟨[path]⟩) := by
  classical
  let router : Router E := fun payee hints =>
    if ValidRoute net payee hints ⟨[path]⟩ then some ⟨[path]⟩ else none
  have hvalid : ValidRoute net guess (probeHint target scid) ⟨[path]⟩ :=
    ⟨by simpa using hpath.leads, by simpa using hpath.payee_last⟩
  have hroute : findRoutes router pubkeyGuess (probeHint target scid) = some ⟨[path]⟩ := by
    simp only [findRoutes, hguess, router]
    exact if_pos hvalid
  have hcheck : checkPath net.us path = true :=
    decide_eq_true ⟨List.length_pos_iff.mpr hpath.ne_nil, hpath.length_le, hpath.avoids_us⟩
  refine ⟨router, fun payee hints route h => ?_, ?_⟩
  · simp only [router] at h
    split at h
    · cases h
      assumption
    · cases h
  · have hsend : sendPayment net.us (fun _ => .sent) none ⟨[path]⟩ = .ok () := by
      simp [sendPayment, hcheck]
    simp only [probe, htarget, hscid, UInt64.ofNat_toNat, hroute, hsend]
    exact ⟨_, rfl⟩

/-- And a probe sends one sendable path. -/
theorem Router.Sound.sendable {net : Network E} {router : Router E} (hsound : router.Sound net)
    {target guess : PublicKey E} {scid : UInt64} {pubkeyStr channelIdStr pubkeyGuess : Text}
    (htarget : PublicKey.fromText E pubkeyStr = some target)
    (hscid : parseUnsigned maxU64 channelIdStr = some scid.toNat)
    (hguess : PublicKey.fromText E pubkeyGuess = some guess)
    {sendAlongPath : List (RouteHop E) → PathResult} {preimage hash : List UInt8}
    {pending pending' : PaymentInfoStorage} {route : Route E}
    (h : probe net.us router sendAlongPath preimage hash pubkeyStr channelIdStr pubkeyGuess
      pending = some (pending', .ok route)) :
    ∃ path, route.paths = [path] ∧ Sendable net target scid guess path := by
  obtain ⟨source, channelId, guess', hsource, hchannel, hguess', hroute, hsend, -⟩ := probe_ok h
  obtain rfl := Option.some.inj (htarget.symm.trans hsource)
  obtain rfl := Option.some.inj (hscid.symm.trans hchannel)
  obtain rfl := Option.some.inj (hguess.symm.trans hguess')
  rw [UInt64.ofNat_toNat] at hroute
  have hvalid := hsound _ _ _ hroute
  obtain ⟨path, hpaths, hne, hlen, hus⟩ := sendPayment_ok hsend
  have hmem : path ∈ route.paths := by simp [hpaths]
  exact ⟨path, hpaths, hne, hlen, hus, hvalid.payee_last path hmem, hvalid.leads path hmem⟩

/-- **Every probe that is sent tests the channel it was asked for exactly if only the hinted
channel leads to the guess.**  Whatever route the router picks and whatever the peers do: when
`probe` returns `Ok`, it has sent one path, which ends with the target and, over the channel, the
guess, and whose failure is recorded for that pair. -/
theorem probe_tests_channel_iff {net : Network E} {target guess : PublicKey E} {scid : UInt64}
    {pubkeyStr channelIdStr pubkeyGuess : Text}
    (htarget : PublicKey.fromText E pubkeyStr = some target)
    (hscid : parseUnsigned maxU64 channelIdStr = some scid.toNat)
    (hguess : PublicKey.fromText E pubkeyGuess = some guess) :
    (∀ (router : Router E) (sendAlongPath : List (RouteHop E) → PathResult)
      (preimage hash : List UInt8) (pending pending' : PaymentInfoStorage) (route : Route E),
      router.Sound net → probe net.us router sendAlongPath preimage hash pubkeyStr channelIdStr
        pubkeyGuess pending = some (pending', .ok route) →
      ∃ path, route.paths = [path] ∧ Tests target scid guess path) ↔
    OnlyHintLeads net target scid guess := by
  constructor
  · intro h
    refine OnlyHintLeads.of_tests fun path hpath => ?_
    obtain ⟨router, hsound, pending', hprobe⟩ := exists_probe_ok htarget hscid hguess hpath
    obtain ⟨path', hpaths, htests⟩ := h router _ _ _ _ _ _ hsound hprobe
    rw [List.singleton_inj] at hpaths
    exact hpaths ▸ htests
  · intro h router sendAlongPath preimage hash pending pending' route hsound hprobe
    obtain ⟨path, hpaths, hpath⟩ := hsound.sendable htarget hscid hguess hprobe
    exact ⟨path, hpaths, h.tests hpath⟩

/-! ## Two networks -/

/-- We have one channel, to node 1; nothing else is known. -/
def quietNetwork : Network sampleKeys where
  us := ourKey
  channels := []
  firstHops := [⟨firstKey, 10⟩]

/-- The guess has a public channel with node 1 besides. -/
def busyNetwork : Network sampleKeys where
  us := ourKey
  channels := [⟨firstKey, guessKey, 11⟩]
  firstHops := [⟨firstKey, 10⟩]

/-- In the quiet network a probe of node 1 tests the channel it names. -/
theorem probe_tests_channel_quiet : ∃ (router : Router sampleKeys) (pending' : PaymentInfoStorage)
    (route : Route sampleKeys) (path : List (RouteHop sampleKeys)),
    router.Sound quietNetwork ∧
      probe quietNetwork.us router (fun _ => .sent) [] [] firstKey.toText (decimal 12)
        guessKey.toText ∅ = some (pending', .ok route) ∧
      route.paths = [path] ∧ Tests firstKey 12 guessKey path := by
  have htarget := PublicKey.fromText_toText firstKey
  have hguess := PublicKey.fromText_toText guessKey
  have hscid : parseUnsigned maxU64 (decimal 12) = some (12 : UInt64).toNat :=
    parseUnsigned_decimal (by decide)
  have h13 := firstKey_ne_guessKey
  have h10 := firstKey_ne_ourKey
  have honly : OnlyHintLeads quietNetwork firstKey 12 guessKey := by
    refine ⟨h10, fun n u s _ _ hknown => ?_⟩
    rcases hknown with hc | ⟨-, hc⟩
    · cases hc
    · rw [quietNetwork, List.mem_singleton, RouteHop.mk.injEq] at hc
      exact absurd hc.1.symm h13
  have hsendable : Sendable quietNetwork firstKey 12 guessKey
      [⟨firstKey, 10⟩, ⟨guessKey, 12⟩] :=
    ⟨by simp, by simp, by simpa [quietNetwork] using h10, by simpa using h13,
      Or.inl (Or.inr ⟨rfl, List.mem_singleton.mpr rfl⟩),
      usable_probeHint.mpr (Or.inr ⟨rfl, rfl, rfl⟩), rfl⟩
  obtain ⟨router, hsound, pending', hprobe⟩ := exists_probe_ok htarget hscid hguess hsendable
  obtain ⟨path, hpath, htests⟩ := (probe_tests_channel_iff htarget hscid hguess).mpr honly router _ _
    _ _ _ _ hsound hprobe
  exact ⟨router, pending', _, path, hsound, hprobe, hpath, htests⟩

/-- In the busy network a probe of node 2's channel 12 goes out over node 1 and channel 11, and
its failure is recorded for them. -/
theorem probe_takes_detour : ∃ (router : Router sampleKeys) (pending' : PaymentInfoStorage),
    router.Sound busyNetwork ∧
      probe busyNetwork.us router (fun _ => .sent) [] [] secondKey.toText (decimal 12)
        guessKey.toText ∅ =
          some (pending', .ok ⟨[[⟨firstKey, 10⟩, ⟨guessKey, 11⟩]]⟩) ∧
      ¬ Tests secondKey 12 guessKey [⟨firstKey, 10⟩, ⟨guessKey, 11⟩] := by
  have hscid : parseUnsigned maxU64 (decimal 12) = some (12 : UInt64).toNat :=
    parseUnsigned_decimal (by decide)
  have h13 := firstKey_ne_guessKey
  have h10 := firstKey_ne_ourKey
  have hsendable : Sendable busyNetwork secondKey 12 guessKey
      [⟨firstKey, 10⟩, ⟨guessKey, 11⟩] :=
    ⟨by simp, by simp, by simpa [busyNetwork] using h10, by simpa using h13,
      Or.inl (Or.inr ⟨rfl, List.mem_singleton.mpr rfl⟩),
      Or.inl (Or.inl (List.mem_singleton.mpr rfl)), rfl⟩
  obtain ⟨router, hsound, pending', hprobe⟩ := exists_probe_ok
    (PublicKey.fromText_toText secondKey) hscid (PublicKey.fromText_toText guessKey) hsendable
  refine ⟨router, pending', hsound, hprobe, fun htests => ?_⟩
  obtain ⟨front, node, hpath, -⟩ := htests.hops
  have hlast := congrArg List.getLast? hpath
  rw [List.getLast?_append_of_ne_nil _ (by simp)] at hlast
  simp at hlast

end HiddenLightning
