import HiddenLightning.ChainFollowing

/-! # Catching up at a start

At a restart the channel manager and every monitor come back from disk at the block they were last
saved at, and `synchronize_listeners` brings them to one tip.  Each is taken down its own branch;
then the blocks of the longest way back up are fetched once and given to those listeners that are
below them.  Which these are is decided by the height alone: `AtOrAbove` is what makes that right.

At a first start there is nothing to catch up with.  The manager is made for the best block that
`getblockchaininfo` gives in step 8 of `main.rs`, and the client for the one that is the best in
step 14.  If a block came in between, no listener is ever told of it (`fresh_start`). -/
namespace HiddenLightning
namespace BlockSync
open ParentLinks

variable {H Tx σ κ L : Type} [DecidableEq H] {poller : ChainPoller σ H Tx}
  {tree : BlockTree poller.consensus} {listen : Listen L H Tx}
  {I : ValidatedBlockHeader H → L → Prop} {best : ValidatedBlockHeader H}

/-! ## The headers the listeners are at -/

theorem validateBestBlockHeader_known (honest : Truthful tree poller.blockSource) {s s' : σ}
    {v : ValidatedBlockHeader H} (h : poller.validateBestBlockHeader s = (.ok v, s')) :
    tree.Known v := by
  obtain ⟨⟨hash, hint⟩, s₁, -, hheader⟩ := Request.bind_eq_ok.mp h
  exact (header_known honest hheader).2

/-- Every listener is paired with the header of the block it is at. -/
theorem oldHeaders_spec (honest : Truthful tree poller.blockSource)
    {k : H → Option (ValidatedBlockHeader H)} (hk : CachedHeaders tree k) :
    ∀ (listeners : List (H × L)) (s s' : σ) (r : List (ValidatedBlockHeader H × L)),
      (∀ h l, (h, l) ∈ listeners → ∀ v, tree.Known v → v.blockHash = h → I v l) →
      oldHeaders poller unboundedCache k listeners s = (.ok r, s') →
      r.length = listeners.length ∧ ∀ v l, (v, l) ∈ r → tree.Known v ∧ I v l := by
  intro listeners
  induction listeners with
  | nil =>
    intro s s' r _ h
    obtain rfl : [] = r := by simpa [oldHeaders] using congrArg Prod.fst h
    simp
  | cons first listeners ih =>
    obtain ⟨hash, listener⟩ := first
    intro s s' r hat h
    unfold oldHeaders at h
    obtain ⟨v, s₁, hv, h⟩ := Request.bind_eq_ok.mp h
    obtain ⟨rest, s₂, hrest, h⟩ := Request.bind_eq_ok.mp h
    obtain rfl : (v, listener) :: rest = r := by simpa using congrArg Prod.fst h
    obtain ⟨hlength, hall⟩ := ih s₁ s₂ rest (fun h l hmem => hat h l (by simp [hmem])) hrest
    have hknown : v.blockHash = hash ∧ tree.Known v := by
      unfold headerAt at hv
      cases hcached : unboundedCache.lookUp k hash with
      | some w =>
        obtain rfl : w = v := by simpa [hcached] using congrArg Prod.fst hv
        exact hk hash w hcached
      | none => exact header_known honest (by simpa [hcached] using hv)
    refine ⟨by simp [hlength], ?_⟩
    intro w l hmem
    rcases List.mem_cons.mp hmem with heq | hmem
    · obtain ⟨rfl, rfl⟩ := Prod.mk.inj heq
      exact ⟨hknown.2, hat hash l (by simp) w hknown.2 hknown.1⟩
    · exact hall w l hmem

/-! ## Down to the best chain -/

/-- The listener is at a header of the best chain, as high as it is said to be, and not further
down than `blocks` goes. -/
def OnBranch (tree : BlockTree poller.consensus) (I : ValidatedBlockHeader H → L → Prop)
    (best : ValidatedBlockHeader H) (blocks : List (ValidatedBlockHeader H)) (height : Nat)
    (l : L) : Prop :=
  ∃ v passed, tree.Known v ∧ Walk tree.Builds best passed v ∧ v.height = height ∧ I v l ∧
    passed.length ≤ blocks.length

/-- What holds of what is gathered: the listeners are on the best chain, and the blocks to connect
go back as far as the furthest of them. -/
structure Gathers (tree : BlockTree poller.consensus) (I : ValidatedBlockHeader H → L → Prop)
    (best : ValidatedBlockHeader H) (g : Gathered L H) : Prop where
  listeners : ∀ height l, (height, l) ∈ g.chainListenersAtHeight →
    OnBranch tree I best g.mostConnectedBlocks height l
  unset : g.mostCommonAncestor = none → g.mostConnectedBlocks = []
  ancestor : ∀ v, g.mostCommonAncestor = some v →
    tree.Known v ∧ Walk tree.Builds best g.mostConnectedBlocks v

omit [DecidableEq H] in
theorem OnBranch.mono {blocks more : List (ValidatedBlockHeader H)} {height : Nat} {l : L}
    (h : OnBranch tree I best blocks height l) (hlen : blocks.length ≤ more.length) :
    OnBranch tree I best more height l := by
  obtain ⟨v, passed, hv, hwalk, hheight, hl, hpassed⟩ := h
  exact ⟨v, passed, hv, hwalk, hheight, hl, hpassed.trans hlen⟩

omit [DecidableEq H] in
@[simp] theorem Gathered.chainListenersAtHeight_add (g : Gathered L H) (d : ChainDifference H)
    (l : L) : (g.add d l).chainListenersAtHeight =
      g.chainListenersAtHeight ++ [(d.commonAncestor.height, l)] := by
  unfold Gathered.add
  split <;> rfl

omit [DecidableEq H] in
/-- One listener more. -/
theorem Gathers.add {g : Gathered L H} (hg : Gathers tree I best g) {d : ChainDifference H}
    {l : L} (hknown : tree.Known d.commonAncestor)
    (hup : Walk tree.Builds best d.connectedBlocks d.commonAncestor) (hl : I d.commonAncestor l) :
    Gathers tree I best (g.add d l) := by
  unfold Gathered.add
  split
  · rename_i hlonger
    refine ⟨?_, by simp, ?_⟩
    · intro height m hmem
      rcases List.mem_append.mp hmem with hmem | hmem
      · exact (hg.listeners height m hmem).mono hlonger.le
      · obtain ⟨rfl, rfl⟩ := Prod.mk.inj (List.mem_singleton.mp hmem)
        exact ⟨_, _, hknown, hup, rfl, hl, le_rfl⟩
    · rintro v ⟨⟩
      exact ⟨hknown, hup⟩
  · rename_i hshorter
    refine ⟨?_, hg.unset, hg.ancestor⟩
    intro height m hmem
    rcases List.mem_append.mp hmem with hmem | hmem
    · exact hg.listeners height m hmem
    · obtain ⟨rfl, rfl⟩ := Prod.mk.inj (List.mem_singleton.mp hmem)
      exact ⟨_, _, hknown, hup, rfl, hl, Nat.le_of_not_lt hshorter⟩

/-- The second loop returns.  If the source fails in it, every listener is at some header; if not,
all are on the best chain. -/
theorem gather_spec (honest : Truthful tree poller.blockSource) (attends : Attends tree listen I)
    {k : H → Option (ValidatedBlockHeader H)} (hk : CachedHeaders tree k)
    (hbest : tree.Known best) {fuel : Nat} :
    ∀ (listeners : List (ValidatedBlockHeader H × L)) (g : Gathered L H) (s : σ),
      (∀ v l, (v, l) ∈ listeners → tree.Known v ∧ I v l ∧ best.height + v.height < fuel) →
      Gathers tree I best g →
      ∃ r s', gather poller unboundedCache listen fuel k best listeners g s = some (r, s') ∧
        match r with
        | .ok g' => Gathers tree I best g' ∧ g'.chainListenersAtHeight.length =
            g.chainListenersAtHeight.length + listeners.length
        | .error (_, ls) => ls.length = g.chainListenersAtHeight.length + listeners.length ∧
            ∀ l ∈ ls, ∃ v, tree.Known v ∧ I v l := by
  have keeps := (keeps_unboundedCache tree).readOnly
  intro listeners
  induction listeners with
  | nil => intro g s _ hg; exact ⟨.ok g, s, rfl, hg, by simp⟩
  | cons first listeners ih =>
    obtain ⟨old, listener⟩ := first
    intro g s hall hg
    obtain ⟨hold, hl, hfuel⟩ := hall old listener (by simp)
    have hrest : ∀ v l, (v, l) ∈ listeners →
        tree.Known v ∧ I v l ∧ best.height + v.height < fuel :=
      fun v l hmem => hall v l (by simp [hmem])
    obtain ⟨r, s₁, hfind, hspec⟩ := findDifferenceLoop_spec honest keeps hk fuel [] [] best old s
      hbest hold (.stay best) (.stay old) hfuel
    cases r with
    | error e =>
      refine ⟨.error (e, g.chainListenersAtHeight.map Prod.snd ++
        listener :: listeners.map Prod.snd), s₁, by simp [gather, findDifference, hfind], ?_, ?_⟩
      · simp
      · intro l hmem
        simp only [List.mem_append, List.mem_cons, List.mem_map] at hmem
        rcases hmem with ⟨⟨height, m⟩, hmem, rfl⟩ | rfl | ⟨⟨v, m⟩, hmem, rfl⟩
        · obtain ⟨v, _, hv, _, _, hi, _⟩ := hg.listeners height m hmem
          exact ⟨v, hv, hi⟩
        · exact ⟨old, hold, hl⟩
        · exact ⟨v, (hrest v m hmem).1, (hrest v m hmem).2.1⟩
    | ok d =>
      obtain ⟨hup, hdown, hancestor⟩ := hspec d rfl
      obtain ⟨k', l', hdisconnect, -, hl'⟩ :=
        disconnectBlocks_spec keeps attends hdown k listener hk hl
      obtain ⟨r, s', hgather, hr⟩ := ih _ s₁ hrest (hg.add hancestor hup hl')
      refine ⟨r, s', ?_, ?_⟩
      · rw [← hgather]
        simp [gather, findDifference, hfind, hdisconnect]
      · simp only [Gathered.chainListenersAtHeight_add, List.length_append, List.length_singleton]
          at hr
        rcases r with ⟨e, ls⟩ | g'
        · exact ⟨by rw [hr.1, List.length_cons]; omega, hr.2⟩
        · exact ⟨hr.1, by rw [hr.2, List.length_cons]; omega⟩

/-! ## Up to the best block -/

/-- While blocks are connected up to `v`: a listener that started at or below `v` is at `v`, and one
that started above is still where it was, on the best chain. -/
def AtOrAbove (tree : BlockTree poller.consensus) (I : ValidatedBlockHeader H → L → Prop)
    (best v : ValidatedBlockHeader H) (listeners : List (Nat × L)) : Prop :=
  ∀ height l, (height, l) ∈ listeners → (height ≤ v.height ∧ I v l) ∨
    (v.height < height ∧ ∃ w passed, tree.Known w ∧ Walk tree.Builds best passed w ∧
      w.height = height ∧ I w l)

omit [DecidableEq H] in
theorem height_walk {a b : ValidatedBlockHeader H} {l : List (ValidatedBlockHeader H)}
    (walk : Walk tree.Builds a l b) : a.height = b.height + l.length :=
  walk.height_eq (fun v => v.height) fun _ _ h => h.height

omit [DecidableEq H] in
/-- The best chain has one header at each height. -/
theorem eq_of_height {v w : ValidatedBlockHeader H} {l m : List (ValidatedBlockHeader H)}
    (hv : Walk tree.Builds best l v) (hw : Walk tree.Builds best m w) (h : v.height = w.height) :
    v = w := by
  have hlength : l.length = m.length := by
    have hl := height_walk hv
    have hm := height_walk hw
    omega
  obtain ⟨rest, rfl, hrest⟩ := hv.exists_rest (fun _ _ _ hp hq => hp.unique hq) hw hlength.le
  obtain rfl : rest = [] := by simpa using hlength
  cases hrest
  rfl

variable (best) in
omit [DecidableEq H] in
/-- A block of the best chain is for the listeners that are right below it. -/
theorem attendsUp_chainListenerSet (attends : Attends tree listen I) (count : Nat) :
    AttendsUp (fun a p => tree.Builds a p ∧ ∃ l, Walk tree.Builds best l a)
      (chainListenerSet listen)
      fun v ls => AtOrAbove tree I best v ls ∧ ls.length = count := by
  rintro a p listeners ⟨hbuilds, passed, hwalk⟩ ⟨hat, hcount⟩ txdata
  have hheight := hbuilds.height
  -- what the block does to one of them
  have hone : ∀ x : Nat × L, (x.1 ≤ p.height ∧ I p x.2) ∨ (p.height < x.1 ∧ ∃ w passed,
        tree.Known w ∧ Walk tree.Builds best passed w ∧ w.height = x.1 ∧ I w x.2) →
      ∃ y, (if x.1 < a.height then
          (listen.filteredBlockConnected a.header txdata a.height x.2).map (x.1, ·)
        else some x) = some y ∧
        ((y.1 ≤ a.height ∧ I a y.2) ∨ (a.height < y.1 ∧ ∃ w passed, tree.Known w ∧
          Walk tree.Builds best passed w ∧ w.height = y.1 ∧ I w y.2)) := by
    rintro ⟨height, l⟩ (⟨hle, hl⟩ | ⟨hlt, w, passed', hw, hwalk', hwheight, hl⟩)
    · obtain ⟨l', hstep, hl'⟩ := attends.connected hbuilds hl txdata
      refine ⟨(height, l'), ?_, .inl ⟨?_, hl'⟩⟩
      · rw [if_pos (by dsimp only; omega), hstep]
        rfl
      · dsimp only at hle ⊢
        omega
    · refine ⟨(height, l), if_neg (by dsimp only at hlt ⊢; omega), ?_⟩
      rcases Nat.lt_or_ge a.height height with hlt' | hge
      · exact .inr ⟨hlt', w, passed', hw, hwalk', hwheight, hl⟩
      · -- it is at this block already
        have hsame : w = a := eq_of_height hwalk' hwalk (by dsimp only at hlt hwheight; omega)
        exact .inl ⟨hge, hsame ▸ hl⟩
  obtain ⟨ls, hmap, hls, hlength⟩ := mapM_attends hone listeners fun x hx => hat x.1 x.2 hx
  exact ⟨ls, hmap, fun height l hmem => hls (height, l) hmem, hlength.trans hcount⟩

omit [DecidableEq H] in
/-- Before the first block is connected, the listeners are at the furthest ancestor or above. -/
theorem Gathers.atOrAbove {g : Gathered L H} (hg : Gathers tree I best g)
    {v : ValidatedBlockHeader H} (hv : g.mostCommonAncestor = some v) :
    AtOrAbove tree I best v g.chainListenersAtHeight := by
  intro height l hmem
  obtain ⟨-, hwalk⟩ := hg.ancestor v hv
  obtain ⟨w, passed, hw, hwalk', rfl, hl, hlength⟩ := hg.listeners height l hmem
  have hbest := height_walk hwalk
  have hbest' := height_walk hwalk'
  rcases Nat.lt_or_ge v.height w.height with hlt | hge
  · exact .inr ⟨hlt, w, passed, hw, hwalk', rfl, hl⟩
  · have hsame : w = v := eq_of_height hwalk' hwalk (by omega)
    exact .inl ⟨hge, hsame ▸ hl⟩

omit [DecidableEq H] in
/-- After the last one, they are at the best block. -/
theorem AtOrAbove.at_best {listeners : List (Nat × L)} (hat : AtOrAbove tree I best best listeners) :
    ∀ l ∈ listeners.map Prod.snd, I best l := by
  intro l hmem
  obtain ⟨⟨height, l⟩, hpair, rfl⟩ := List.mem_map.mp hmem
  rcases hat height l hpair with ⟨-, hl⟩ | ⟨hlt, w, passed, -, hwalk, rfl, -⟩
  · exact hl
  · have hheight := height_walk hwalk
    omega

/-! ## The whole of it -/

/-- `synchronize_listeners` returns.  If it returns a header, every listener is at it; if it fails,
every listener is at some header of the tree, so that another start can go on from there. -/
theorem synchronizeListeners_spec (honest : Truthful tree poller.blockSource)
    (attends : Attends tree listen I) {k : H → Option (ValidatedBlockHeader H)}
    (hk : CachedHeaders tree k) (listeners : List (H × L)) (s : σ)
    (hat : ∀ h l, (h, l) ∈ listeners → ∃ v, tree.Known v ∧ v.blockHash = h ∧ I v l) :
    ∃ enough, ∀ fuel, enough ≤ fuel → ∃ r k' ls s',
      synchronizeListeners poller unboundedCache listen fuel k listeners s =
        some (r, (k', ls), s') ∧ CachedHeaders tree k' ∧ ls.length = listeners.length ∧
        match r with
        | .ok best => tree.Known best ∧ ∀ l ∈ ls, I best l
        | .error _ => ∀ l ∈ ls, ∃ v, tree.Known v ∧ I v l := by
  have huntouched : ∀ l ∈ listeners.map Prod.snd, ∃ v, tree.Known v ∧ I v l := by
    intro l hmem
    obtain ⟨⟨h, l⟩, hpair, rfl⟩ := List.mem_map.mp hmem
    obtain ⟨v, hv, -, hl⟩ := hat h l hpair
    exact ⟨v, hv, hl⟩
  rcases hvalidate : poller.validateBestBlockHeader s with ⟨e | best, s₁⟩
  · exact ⟨0, fun fuel _ => ⟨.error e, k, listeners.map Prod.snd, s₁,
      by simp [synchronizeListeners, hvalidate], hk, by simp, huntouched⟩⟩
  have hbest := validateBestBlockHeader_known honest hvalidate
  rcases hold : oldHeaders poller unboundedCache k listeners s₁ with ⟨e | olds, s₂⟩
  · exact ⟨0, fun fuel _ => ⟨.error e, k, listeners.map Prod.snd, s₂,
      by simp [synchronizeListeners, hvalidate, hold], hk, by simp, huntouched⟩⟩
  obtain ⟨hlength, holds⟩ := oldHeaders_spec (I := I) honest hk listeners s₁ s₂ olds
    (fun h l hmem v hv hhash => by
      obtain ⟨w, hw, hhash', hl⟩ := hat h l hmem
      rwa [hv.eq hw (hhash.trans hhash'.symm)]) hold
  refine ⟨best.height + (olds.map fun old => old.1.height).sum + 1, fun fuel hfuel => ?_⟩
  obtain ⟨r, s₃, hgather, hr⟩ := gather_spec honest attends hk hbest olds ⟨[], none, []⟩ s₂
    (fun v l hmem => ⟨(holds v l hmem).1, (holds v l hmem).2, by
      have hle : v.height ≤ (olds.map fun old => old.1.height).sum :=
        List.single_le_sum (by simp) _ (List.mem_map.mpr ⟨(v, l), hmem, rfl⟩)
      show best.height + v.height < fuel
      omega⟩)
    ⟨by simp, by simp, by simp⟩
  rcases r with ⟨e, ls⟩ | g
  · refine ⟨.error e, k, ls, s₃, ?_, hk, ?_, hr.2⟩
    · simp [synchronizeListeners, hvalidate, hold, hgather]
    · simpa [hlength] using hr.1
  obtain ⟨hg, hcount⟩ := hr
  have hcount : g.chainListenersAtHeight.length = listeners.length := by
    simpa [hlength] using hcount
  cases hancestor : g.mostCommonAncestor with
  | none =>
    refine ⟨.ok best, k, g.chainListenersAtHeight.map Prod.snd, s₃, ?_, hk, by simpa using hcount,
      hbest, ?_⟩
    · simp [synchronizeListeners, hvalidate, hold, hgather, hancestor]
    · -- no listener has a block to connect
      intro l hmem
      obtain ⟨⟨height, l⟩, hpair, rfl⟩ := List.mem_map.mp hmem
      obtain ⟨v, passed, -, hwalk, -, hl, hle⟩ := hg.listeners height l hpair
      rw [hg.unset hancestor, List.length_nil, Nat.le_zero, List.length_eq_zero_iff] at hle
      subst hle
      cases hwalk
      exact hl
  | some v =>
    obtain ⟨hv, hwalk⟩ := hg.ancestor v hancestor
    obtain ⟨r, k', ls, s₄, hconnect, hk', hr⟩ := connectLoop_spec honest
      unboundedCache_blockConnected And.left
      (attendsUp_chainListenerSet best attends g.chainListenersAtHeight.length)
      g.mostConnectedBlocks.reverse v best k g.chainListenersAtHeight s₃ hv
      (by simpa using Walk.from_start (.stay best) hwalk) hk ⟨hg.atOrAbove hancestor, rfl⟩
    rcases r with ⟨e, stopped⟩ | ⟨⟩
    · obtain ⟨w, rfl, hw, hat', hlen⟩ := hr
      refine ⟨.error e, k', ls.map Prod.snd, s₄, ?_, hk', by simp [hlen, hcount], ?_⟩
      · simp [synchronizeListeners, hvalidate, hold, hgather, hancestor, connectBlocks, hconnect]
      · intro l hmem
        obtain ⟨⟨height, l⟩, hpair, rfl⟩ := List.mem_map.mp hmem
        rcases hat' height l hpair with ⟨-, hl⟩ | ⟨-, u, _, hu, -, -, hl⟩
        · exact ⟨w, hw, hl⟩
        · exact ⟨u, hu, hl⟩
    · refine ⟨.ok best, k', ls.map Prod.snd, s₄, ?_, hk', by simp [hr.2, hcount], hbest,
        hr.1.at_best⟩
      simp [synchronizeListeners, hvalidate, hold, hgather, hancestor, connectBlocks, hconnect]

/-! ## A restart -/

theorem attends_startupListener {c : Consensus H Tx} (tree : BlockTree c) :
    Attends tree (startupListener c) fun v l => l.best = v.best where
  connected {a p l} hbuilds hl txdata := by
    cases l with
    | manager best =>
      obtain ⟨best', hstep, hbest'⟩ := (attends_channelManager tree).connected hbuilds hl txdata
      exact ⟨.manager best', congrArg (Option.map StartupListener.manager) hstep, hbest'⟩
    | monitor best =>
      obtain ⟨best', hstep, hbest'⟩ := (attends_channelMonitor tree).connected hbuilds hl txdata
      exact ⟨.monitor best', congrArg (Option.map StartupListener.monitor) hstep, hbest'⟩
  disconnected {a p l} hbuilds hl := by
    cases l with
    | manager best =>
      obtain ⟨best', hstep, hbest'⟩ := (attends_channelManager tree).disconnected hbuilds hl
      exact ⟨.manager best', congrArg (Option.map StartupListener.manager) hstep, hbest'⟩
    | monitor best =>
      obtain ⟨best', hstep, hbest'⟩ := (attends_channelMonitor tree).disconnected hbuilds hl
      exact ⟨.monitor best', congrArg (Option.map StartupListener.monitor) hstep, hbest'⟩

/-- The listeners of step 9, each with the hash of its best block. -/
def startupListeners (manager : BestBlock H) (monitors : List (BestBlock H)) :
    List (H × StartupListener H) :=
  (manager.blockHash, .manager manager) :: monitors.map fun m => (m.blockHash, .monitor m)

/-- The client of step 14, when the manager is the first of the listeners of step 9. -/
def startupClient (best : ValidatedBlockHeader H) (k : H → Option (ValidatedBlockHeader H))
    (manager : StartupListener H) (monitors : List (StartupListener H)) :
    SpvClient (H → Option (ValidatedBlockHeader H)) (List (BestBlock H) × BestBlock H) H :=
  ⟨best, k, monitors.map StartupListener.best, manager.best⟩

/-- A restart from any blocks of the tree: step 9 returns, and if it succeeds, the manager and the
monitors are at the client's tip from then on, whatever the polls find. -/
theorem restart_at_tip (honest : Truthful tree poller.blockSource) (manager : BestBlock H)
    (monitors : List (BestBlock H)) (s : σ)
    (hat : ∀ m ∈ manager :: monitors, ∃ v, tree.Known v ∧ m = v.best) :
    ∃ enough, ∀ fuel, enough ≤ fuel → ∃ r k manager' monitors' s',
      synchronizeListeners poller unboundedCache (startupListener poller.consensus) fuel
        (fun _ => none) (startupListeners manager monitors) s =
        some (r, (k, manager' :: monitors'), s') ∧ monitors'.length = monitors.length ∧
      ∀ best, r = .ok best → ∀ client,
        Relation.ReflTransGen (Polled poller (chainListener poller.consensus))
          (startupClient best k manager' monitors') client →
        AtTip client.chainTip client.chainListener := by
  obtain ⟨enough, hspec⟩ := synchronizeListeners_spec honest (attends_startupListener tree)
    (k := fun _ => none) (by intro h v hv; simp at hv) (startupListeners manager monitors) s (by
      intro h l hmem
      rcases List.mem_cons.mp hmem with heq | hmem
      · obtain ⟨rfl, rfl⟩ := Prod.mk.inj heq
        obtain ⟨v, hv, rfl⟩ := hat manager (by simp)
        exact ⟨v, hv, rfl, rfl⟩
      · obtain ⟨m, hm, heq⟩ := List.mem_map.mp hmem
        obtain ⟨rfl, rfl⟩ := Prod.mk.inj heq
        obtain ⟨v, hv, rfl⟩ := hat m (by simp [hm])
        exact ⟨v, hv, rfl, rfl⟩)
  refine ⟨enough, fun fuel hfuel => ?_⟩
  obtain ⟨r, k, ls, s', hsync, hk, hlength, hr⟩ := hspec fuel hfuel
  rcases ls with _ | ⟨manager', monitors'⟩
  · simp [startupListeners] at hlength
  refine ⟨r, k, manager', monitors', s', hsync, by simpa [startupListeners] using hlength, ?_⟩
  rintro best rfl client run
  have hstart : InStep tree AtTip (startupClient best k manager' monitors') := by
    refine ⟨hr.1, hk, ?_, hr.2 manager' (by simp)⟩
    intro m hm
    obtain ⟨l, hl, rfl⟩ := List.mem_map.mp hm
    exact hr.2 l (by simp [hl])
  exact (hstart.polls honest (attends_chainListener tree) run).listener

/-! ## A first start -/

/-- The client of a first start: no monitors, and a manager made for another block. -/
def freshClient (tip : ValidatedBlockHeader H) (manager : BestBlock H) :
    SpvClient (H → Option (ValidatedBlockHeader H)) (List (BestBlock H) × BestBlock H) H :=
  ⟨tip, fun _ => none, [], manager⟩

omit [DecidableEq H] in
theorem freshClient_inStep {tip : ValidatedBlockHeader H} (htip : tree.Known tip) :
    InStep tree AtTip (freshClient tip tip.best) :=
  ⟨htip, by intro h v hv; simp [freshClient] at hv, by simp [freshClient], rfl⟩

variable {tip : ValidatedBlockHeader H} {manager : BestBlock H}

/-- The manager panics when it is told that the client's tip went away. -/
theorem disconnectBlocks_behind (cache : Cache κ H) (htip : tree.Known tip)
    (hbehind : manager.blockHash ≠ tip.blockHash) {blocks : List (ValidatedBlockHeader H)}
    {v : ValidatedBlockHeader H} (hdown : Walk tree.Builds tip blocks v) {k : κ} {at_}
    (h : disconnectBlocks cache (chainListener poller.consensus) blocks (k, [], manager) =
      some at_) : blocks = [] := by
  cases hdown with
  | stay => rfl
  | back link rest =>
    exfalso
    simp [disconnectBlocks, chainListener, Listen.pair, chainMonitor, channelManager,
      tree.hash htip, hbehind] at h

/-- It panics when it is told of a block on the tip, too: all that a connecting loop can do without
a panic is nothing. -/
theorem connectLoop_behind (cache : Cache κ H) (honest : Truthful tree poller.blockSource)
    (hbehind : manager.blockHash ≠ tip.blockHash) {blocks : List (ValidatedBlockHeader H)}
    {top : ValidatedBlockHeader H} (hup : Walk tree.Builds top blocks.reverse tip) {k : κ} {s : σ}
    {r at' s'} (h : connectLoop poller cache (chainListener poller.consensus) tip blocks
      (k, [], manager) s = some (r, at', s')) :
    at' = (k, [], manager) ∧ (r = .ok () → top = tip) ∧ ∀ e v, r = .error (e, v) → v = some tip := by
  cases blocks with
  | nil =>
    simp only [connectLoop, Option.some.injEq, Prod.mk.injEq] at h
    obtain ⟨rfl, rfl, -⟩ := h
    cases hup
    exact ⟨rfl, fun _ => rfl, by simp⟩
  | cons header blocks =>
    rw [List.reverse_cons] at hup
    obtain ⟨-, hbuilds⟩ := hup.of_snoc
    rcases hfetch : poller.fetchBlock header s with ⟨e | block, s₁⟩
    · simp only [connectLoop, hfetch, Option.some.injEq, Prod.mk.injEq] at h
      obtain ⟨rfl, rfl, -⟩ := h
      refine ⟨rfl, by simp, ?_⟩
      rintro e' v ⟨⟩
      rfl
    · have hheader := fetchBlock_header honest hbuilds.child hfetch
      simp [connectLoop, hfetch, Listen.blockConnected, chainListener, Listen.pair, chainMonitor,
        channelManager, hheader, hbuilds.link, hbehind] at h

/-- So a synchronisation that returns has told nobody of anything. -/
theorem synchronizeListener_behind (honest : Truthful tree poller.blockSource)
    (htip : tree.Known tip) (hbehind : manager.blockHash ≠ tip.blockHash)
    (hbest : tree.Known best) {k : H → Option (ValidatedBlockHeader H)}
    (hk : CachedHeaders tree k) {fuel : Nat} (hfuel : best.height + tip.height < fuel) {s : σ}
    {r at' s'} (h : synchronizeListener poller unboundedCache (chainListener poller.consensus) fuel
      best tip (k, [], manager) s = some (r, at', s')) :
    at' = (k, [], manager) ∧ (r = .ok () → best = tip) ∧ ∀ e v, r = .error (e, some v) → v = tip := by
  obtain ⟨found, s₁, hfind, hwalks⟩ := findDifferenceLoop_spec honest (keeps_unboundedCache tree)
    hk fuel [] [] best tip s hbest htip (.stay best) (.stay tip) hfuel
  cases found with
  | error e =>
    simp only [synchronizeListener, findDifference, hfind, Option.some.injEq, Prod.mk.injEq] at h
    obtain ⟨rfl, rfl, -⟩ := h
    exact ⟨rfl, by simp, by simp⟩
  | ok d =>
    obtain ⟨hup, hdown, -⟩ := hwalks d rfl
    simp only [synchronizeListener, findDifference, hfind, Option.bind_eq_bind,
      Option.bind_eq_some_iff] at h
    obtain ⟨at_, hdisconnect, hconnect⟩ := h
    have hnone := disconnectBlocks_behind unboundedCache htip hbehind hdown hdisconnect
    rw [hnone] at hdisconnect hdown
    obtain rfl := Option.some.inj hdisconnect
    generalize d.commonAncestor = ancestor at hup hdown hconnect
    cases hdown
    obtain ⟨hat, hok, herror⟩ := connectLoop_behind unboundedCache honest hbehind
      (by simpa using hup) hconnect
    exact ⟨hat, hok, fun e v hr => Option.some.inj (herror e _ hr)⟩

theorem updateChainTip_behind (honest : Truthful tree poller.blockSource)
    (htip : tree.Known tip) (hbehind : manager.blockHash ≠ tip.blockHash)
    (hbest : tree.Known best) {fuel : Nat} (hfuel : best.height + tip.height < fuel) {s : σ}
    {b client s'} (h : (freshClient tip manager).updateChainTip poller unboundedCache
      (chainListener poller.consensus) fuel best s = some (b, client, s')) :
    client = freshClient tip manager := by
  unfold SpvClient.updateChainTip at h
  simp only [Option.bind_eq_bind, Option.bind_eq_some_iff] at h
  obtain ⟨⟨r, ⟨k, l⟩, s₁⟩, hsync, h⟩ := h
  obtain ⟨hat, hok, herror⟩ := synchronizeListener_behind honest htip hbehind hbest
    (by intro h v hv; simp [freshClient] at hv) hfuel hsync
  obtain ⟨rfl, rfl⟩ := Prod.mk.inj hat
  rcases r with ⟨e, _ | v⟩ | ⟨⟩
  · simp only [Option.pure_def, Option.some.injEq, Prod.mk.injEq] at h
    exact h.2.1.symm
  · obtain rfl := herror e v rfl
    simp only [freshClient, ne_eq, not_true, if_false, Option.pure_def, Option.some.injEq,
      Prod.mk.injEq] at h
    exact h.2.1.symm
  · obtain rfl := hok rfl
    simp only [Option.pure_def, Option.some.injEq, Prod.mk.injEq] at h
    exact h.2.1.symm

theorem polled_behind (honest : Truthful tree poller.blockSource) (htip : tree.Known tip)
    (hbehind : manager.blockHash ≠ tip.blockHash) {client}
    (h : Polled poller (chainListener poller.consensus) (freshClient tip manager) client) :
    client = freshClient tip manager := by
  obtain ⟨s, r, s', enough, hpoll⟩ := h
  have hleft := hpoll enough le_rfl
  unfold SpvClient.pollBestTip at hpoll hleft
  rcases hask : poller.pollChainTip (freshClient tip manager).chainTip s with ⟨e | asked, s₁⟩
  · simp [hask] at hleft
  cases asked with
  | common =>
    simp only [hask, Option.some.injEq, Prod.mk.injEq] at hleft
    exact hleft.2.1.symm
  | worse v =>
    simp only [hask, Option.some.injEq, Prod.mk.injEq] at hleft
    exact hleft.2.1.symm
  | better best =>
    have hlate := hpoll (max enough (best.height + tip.height + 1)) (le_max_left _ _)
    simp only [hask, Option.bind_eq_bind, Option.bind_eq_some_iff] at hlate
    obtain ⟨⟨b, client', s₂⟩, hupdate, hlate⟩ := hlate
    simp only [Option.pure_def, Option.some.injEq, Prod.mk.injEq] at hlate
    rw [← hlate.2.1]
    exact updateChainTip_behind honest htip hbehind (pollChainTip_better honest hask).1
      (lt_of_lt_of_le (Nat.lt_succ_self _) (le_max_right _ _)) hupdate

/-- When the source has a better block and answers, the poll that is about to tell of it does not
return. -/
theorem pollBestTip_behind (honest : Truthful tree poller.blockSource) {P : σ → Prop}
    (serves : Serves poller tree P best.blockHash) (valid : Valid poller tree)
    (htip : tree.Known tip) (hbehind : manager.blockHash ≠ tip.blockHash)
    (hbest : tree.Known best) (hwork : tip.chainwork < best.chainwork) {fuel : Nat}
    (hfuel : best.height + tip.height < fuel) {s : σ} (hs : P s) :
    (freshClient tip manager).pollBestTip poller unboundedCache (chainListener poller.consensus)
      fuel s = none := by
  have hk : CachedHeaders tree (freshClient tip manager).headerCache := by
    intro h v hv
    simp [freshClient] at hv
  have hne : best ≠ tip := by
    rintro rfl
    exact lt_irrefl _ hwork
  obtain ⟨s₁, hs₁, hpoll⟩ := serves.pollChainTip valid htip hbest rfl hwork hs
  have hupdate : (freshClient tip manager).updateChainTip poller unboundedCache
      (chainListener poller.consensus) fuel best s₁ = none := by
    rw [Option.eq_none_iff_forall_ne_some]
    rintro ⟨b, client, s'⟩ h
    unfold SpvClient.updateChainTip at h
    simp only [Option.bind_eq_bind, Option.bind_eq_some_iff] at h
    obtain ⟨⟨r, at', s₂⟩, hsync, -⟩ := h
    obtain ⟨-, hok, -⟩ := synchronizeListener_behind honest htip hbehind hbest hk hfuel hsync
    exact hne (hok (serves.synchronizeListener_ok honest valid (keeps_unboundedCache tree) hk hs₁
      hbest htip hfuel hsync))
  simp only [SpvClient.pollBestTip]
  rw [show (freshClient tip manager).chainTip = tip from rfl, hpoll]
  simp [hupdate]

/-- A first start.  If the best block is still the one the manager was made for when the client is
made, the manager stays at the client's tip.  If it is another, no poll ever tells the manager of a
block: it stays where it is, and the first poll that finds a better block makes it panic
(`find_difference` has rounds enough, so that is what `none` says). -/
theorem fresh_start (honest : Truthful tree poller.blockSource) {made : ValidatedBlockHeader H}
    (hmade : tree.Known made) (htip : tree.Known tip) {client}
    (run : Relation.ReflTransGen (Polled poller (chainListener poller.consensus))
      (freshClient tip made.best) client) :
    if made.blockHash = tip.blockHash then AtTip client.chainTip client.chainListener
    else client = freshClient tip made.best ∧
      ∀ (P : σ → Prop) best, Serves poller tree P best.blockHash → Valid poller tree →
        tree.Known best → tip.chainwork < best.chainwork → ∀ s, P s →
        ∀ fuel, best.height + tip.height < fuel →
          (∀ s', ∃ found, findDifference poller unboundedCache fuel client.headerCache best
            client.chainTip s' = some found) ∧
          client.pollBestTip poller unboundedCache (chainListener poller.consensus) fuel s =
            none := by
  split
  · rename_i hsame
    obtain rfl := hmade.eq htip hsame
    exact ((freshClient_inStep htip).polls honest (attends_chainListener tree) run).listener
  · rename_i hbehind
    have hclient : client = freshClient tip made.best := by
      induction run with
      | refl => rfl
      | tail _ hpoll ih =>
        subst ih
        exact polled_behind honest htip hbehind hpoll
    refine ⟨hclient, ?_⟩
    intro P best serves valid hbest hwork s hs fuel hfuel
    rw [hclient]
    refine ⟨fun s' => ?_, pollBestTip_behind honest serves valid htip hbehind hbest hwork hfuel hs⟩
    have hk : CachedHeaders tree (freshClient tip made.best).headerCache := by
      intro h v hv
      simp [freshClient] at hv
    exact findDifference_returns honest (keeps_unboundedCache tree) hk hbest htip hfuel s'

/-- With a fork: the manager was last saved at block 1, one monitor at block 0 and one at 2. -/
theorem restart_at_tip_of_fork :
    ∃ enough, ∀ fuel, enough ≤ fuel → ∃ r k manager' monitors' s',
      synchronizeListeners forkPoller unboundedCache (startupListener forkPoller.consensus) fuel
        (fun _ => none) (startupListeners ⟨1, 1⟩ [⟨0, 0⟩, ⟨2, 1⟩]) () =
        some (r, (k, manager' :: monitors'), s') ∧ monitors'.length = 2 ∧
      ∀ best, r = .ok best → ∀ client,
        Relation.ReflTransGen (Polled forkPoller (chainListener forkPoller.consensus))
          (startupClient best k manager' monitors') client →
        AtTip client.chainTip client.chainListener :=
  restart_at_tip forkSource_truthful ⟨1, 1⟩ [⟨0, 0⟩, ⟨2, 1⟩] () (by
    intro m hm
    simp only [List.mem_cons, List.not_mem_nil, or_false] at hm
    rcases hm with rfl | rfl | rfl
    · exact ⟨⟨⟨forkHeader 0 1, 1, 2⟩, 1⟩, rfl, rfl⟩
    · exact ⟨⟨⟨forkHeader 9 0, 0, 1⟩, 0⟩, rfl, rfl⟩
    · exact ⟨⟨⟨forkHeader 0 2, 1, 2⟩, 2⟩, rfl, rfl⟩)

/-- Block 2 came between the two steps: block 3 makes the manager panic. -/
theorem fresh_start_of_fork :
    (∀ s, ∃ found, findDifference forkPoller unboundedCache 4
      (freshClient forkSecond forkGenesis.best).headerCache forkBest forkSecond s = some found) ∧
    (freshClient forkSecond forkGenesis.best).pollBestTip forkPoller unboundedCache
      (chainListener forkPoller.consensus) 4 () = none := by
  have h := fresh_start forkSource_truthful forkGenesis_known forkSecond_known .refl
  rw [if_neg (by decide)] at h
  exact h.2 (fun _ => True) forkBest forkPoller_serves forkPoller_valid forkBest_known (by decide)
    () trivial 4 (by decide)

end BlockSync
end HiddenLightning
