import HiddenLightning.BlockSync

/-! # The listeners stay in step with the client's tip

What a source may do here is fail, and change its mind about the best block; what it may not do is
answer for one hash with two headers or heights, or give a block a height that is not its parent's
plus one.  The headers it can answer with are a `BlockTree` then.  Every header the client gets
hold of is in the tree, whether it was fetched or cached, and so is every walk `find_difference`
makes: it goes down by one height a step, which bounds the loop, and ends where the branches meet.

A listener keeps a best block.  The channel manager's insists on being told of the blocks in chain
order and panics if it is not.  `synchronizeListener_spec` says where one synchronisation leaves a
listener, `pollBestTip_spec` a poll, and `following` the loop of polls of `main.rs`. -/
namespace HiddenLightning
namespace BlockSync
open ParentLinks

variable {H Tx σ κ L : Type}

/-! ## The headers of a source -/

/-- Headers by their hash, with heights that fit. -/
structure BlockTree (c : Consensus H Tx) where
  header : H → Option (BlockHeaderData H)
  hash : ∀ {h d}, header h = some d → c.blockHash d.header = h
  height : ∀ {h d p}, header h = some d → header d.header.prevBlockhash = some p →
    d.height = p.height + 1

namespace BlockTree
variable {c : Consensus H Tx} (tree : BlockTree c)

/-- A header that is the tree's header for its hash. -/
def Known (v : ValidatedBlockHeader H) : Prop := tree.header v.blockHash = some v.toBlockHeaderData

/-- `p` is the header `a` names as its parent. -/
structure Builds (a p : ValidatedBlockHeader H) : Prop where
  child : tree.Known a
  parent : tree.Known p
  link : a.header.prevBlockhash = p.blockHash

variable {tree} {a b p : ValidatedBlockHeader H} {l : List (ValidatedBlockHeader H)}

theorem Known.eq (ha : tree.Known a) (hb : tree.Known b) (h : a.blockHash = b.blockHash) :
    a = b := by
  unfold Known at ha hb
  rw [h, hb] at ha
  cases a
  cases b
  simp only [Option.some.injEq] at ha h
  rw [h, ha]

theorem Builds.height (h : tree.Builds a p) : a.height = p.height + 1 :=
  tree.height h.child (by rw [h.link]; exact h.parent)

theorem Builds.unique {q : ValidatedBlockHeader H} (hp : tree.Builds a p) (hq : tree.Builds a q) :
    p = q :=
  hp.parent.eq hq.parent (hp.link.symm.trans hq.link)

theorem Builds.hash (h : tree.Builds a p) : c.blockHash a.header = a.blockHash :=
  tree.hash h.child

end BlockTree

/-- A source that answers from the tree, if it answers: for one hash it has one header, with one
height and one amount of work, and the block it has for the hash has that header. -/
structure Truthful {c : Consensus H Tx} (tree : BlockTree c) (source : BlockSource σ H Tx) :
    Prop where
  header : ∀ {h hint s d s'}, source.getHeader h hint s = (.ok d, s') → c.blockHash d.header = h →
    tree.header h = some d
  block : ∀ {h s b s' d}, source.getBlock h s = (.ok b, s') → c.blockHash b.header = h →
    tree.header h = some d → b.header = d.header

/-- A cache that holds headers of the tree, each under its hash. -/
structure Keeps {c : Consensus H Tx} (tree : BlockTree c) (cache : Cache κ H) (K : κ → Prop) :
    Prop where
  lookUp : ∀ {k h v}, K k → cache.lookUp k h = some v → v.blockHash = h ∧ tree.Known v
  blockDisconnected : ∀ {k h}, K k → K (cache.blockDisconnected k h).2 ∧
    ∀ v ∈ (cache.blockDisconnected k h).1, v.blockHash = h ∧ tree.Known v

theorem Keeps.readOnly {c : Consensus H Tx} {tree : BlockTree c} {cache : Cache κ H}
    {K : κ → Prop} (keeps : Keeps tree cache K) : Keeps tree (readOnlyCache cache) K where
  lookUp := keeps.lookUp
  blockDisconnected hk := ⟨hk, by simp [readOnlyCache]⟩

/-- What the cache of `main.rs` may hold. -/
def CachedHeaders {c : Consensus H Tx} (tree : BlockTree c)
    (k : H → Option (ValidatedBlockHeader H)) : Prop :=
  ∀ h v, k h = some v → v.blockHash = h ∧ tree.Known v

section
variable [DecidableEq H]

theorem CachedHeaders.remove {c : Consensus H Tx} {tree : BlockTree c}
    {k : H → Option (ValidatedBlockHeader H)} (hk : CachedHeaders tree k) (hash : H) :
    CachedHeaders tree (Function.update k hash none) := by
  intro h v hv
  by_cases hh : h = hash
  · subst hh
    simp at hv
  · exact hk h v (by simpa [hh] using hv)

theorem CachedHeaders.insert {c : Consensus H Tx} {tree : BlockTree c}
    {k : H → Option (ValidatedBlockHeader H)} (hk : CachedHeaders tree k)
    {v : ValidatedBlockHeader H} (hv : tree.Known v) :
    CachedHeaders tree (Function.update k v.blockHash (some v)) := by
  intro h w hw
  by_cases hh : h = v.blockHash
  · subst hh
    obtain rfl : v = w := by simpa using hw
    exact ⟨rfl, hv⟩
  · exact hk h w (by simpa [hh] using hw)

theorem keeps_unboundedCache {c : Consensus H Tx} (tree : BlockTree c) :
    Keeps tree unboundedCache (CachedHeaders tree) where
  lookUp hk h := hk _ _ h
  blockDisconnected {_ h} hk := ⟨hk.remove h, fun v hv => hk h v (Option.mem_def.mp hv)⟩

/-! ## What the poller answers with -/

/-- A header that passes `validate` is the one that was given, and has the hash. -/
theorem validate_eq_ok {c : Consensus H Tx} {d : BlockHeaderData H} {hash : H}
    {v : ValidatedBlockHeader H} (h : d.validate c hash = .ok v) :
    c.blockHash d.header = hash ∧ v = { d with blockHash := hash } := by
  unfold BlockHeaderData.validate at h
  cases hpow : checkPow c d.header with
  | error e => simp [hpow, bind, Except.bind] at h
  | ok u =>
    by_cases hhash : c.blockHash d.header = hash
    · simp only [hpow, bind, Except.bind, hhash, ne_eq, not_true, if_false,
        Except.ok.injEq] at h
      exact ⟨hhash, h.symm⟩
    · simp [hpow, bind, Except.bind, hhash] at h

/-- So is a block. -/
theorem Block.validate_eq_ok {c : Consensus H Tx} {block b : Block H Tx} {hash : H}
    (h : block.validate c hash = .ok b) : c.blockHash block.header = hash ∧ b = block := by
  unfold Block.validate at h
  cases hpow : checkPow c block.header with
  | error e => simp [hpow, bind, Except.bind] at h
  | ok u =>
    simp only [hpow, bind, Except.bind, ne_eq, ite_not] at h
    split at h
    · rename_i hhash
      refine ⟨hhash, ?_⟩
      split at h
      · simp at h
      · split at h
        · simp at h
        · exact (Except.ok.inj h).symm
    · simp at h

/-- A header that passes `check_builds_on` names the other as its parent. -/
theorem checkBuildsOn_link {c : Consensus H Tx} {a p : ValidatedBlockHeader H}
    {network : BitcoinNetwork} (h : a.checkBuildsOn c p network = .ok ()) :
    a.header.prevBlockhash = p.blockHash := by
  unfold ValidatedBlockHeader.checkBuildsOn at h
  by_contra hne
  simp [hne] at h

variable {poller : ChainPoller σ H Tx} {tree : BlockTree poller.consensus} {cache : Cache κ H}
  {K : κ → Prop}

theorem header_known (honest : Truthful tree poller.blockSource) {hash : H} {hint : Option Nat}
    {s s' : σ} {v : ValidatedBlockHeader H} (h : poller.header hash hint s = (.ok v, s')) :
    v.blockHash = hash ∧ tree.Known v := by
  obtain ⟨d, s₁, hget, hv⟩ := Request.bind_eq_ok.mp h
  obtain ⟨hhash, rfl⟩ := validate_eq_ok (congrArg Prod.fst hv)
  exact ⟨rfl, honest.header hget hhash⟩

theorem fetchBlock_header (honest : Truthful tree poller.blockSource)
    {v : ValidatedBlockHeader H} (hv : tree.Known v) {s s' : σ} {b : Block H Tx}
    (h : poller.fetchBlock v s = (.ok b, s')) : b.header = v.header := by
  obtain ⟨b, s₁, hget, hb⟩ := Request.bind_eq_ok.mp h
  obtain ⟨hhash, rfl⟩ := Block.validate_eq_ok (congrArg Prod.fst hb)
  exact honest.block hget hhash hv

/-- A tip that was polled is in the tree. -/
theorem pollChainTip_better (honest : Truthful tree poller.blockSource)
    {best v : ValidatedBlockHeader H} {s s' : σ}
    (h : poller.pollChainTip best s = (.ok (.better v), s')) :
    tree.Known v ∧ best.chainwork < v.chainwork := by
  obtain ⟨⟨hash, hint⟩, s₁, -, h⟩ := Request.bind_eq_ok.mp h
  dsimp only at h
  split at h
  · simp at h
  · obtain ⟨w, s₂, hheader, h⟩ := Request.bind_eq_ok.mp h
    split at h
    · rename_i hwork
      obtain rfl : w = v := by simpa using congrArg Prod.fst h
      exact ⟨(header_known honest hheader).2, hwork⟩
    · simp at h

/-- The header before a known one, however it is looked up. -/
theorem lookUpPreviousHeader_builds (honest : Truthful tree poller.blockSource)
    (keeps : Keeps tree cache K) {k : κ} (hk : K k) {a p : ValidatedBlockHeader H}
    (ha : tree.Known a) {s s' : σ}
    (h : lookUpPreviousHeader poller cache k a s = (.ok p, s')) : tree.Builds a p := by
  unfold lookUpPreviousHeader at h
  cases hcached : cache.lookUp k a.header.prevBlockhash with
  | some q =>
    obtain ⟨rfl, -⟩ : q = p ∧ s = s' := by simpa [hcached] using h
    obtain ⟨hlink, hq⟩ := keeps.lookUp hk hcached
    exact ⟨ha, hq, hlink.symm⟩
  | none =>
    simp only [hcached] at h
    unfold ChainPoller.lookUpPreviousHeader at h
    split at h
    · simp at h
    · obtain ⟨q, s₁, hheader, h⟩ := Request.bind_eq_ok.mp h
      obtain ⟨_, s₂, -, h⟩ := Request.bind_eq_ok.mp h
      obtain rfl : q = p := by simpa using congrArg Prod.fst h
      obtain ⟨hlink, hq⟩ := header_known honest hheader
      exact ⟨ha, hq, hlink.symm⟩

/-! ## Finding where two branches meet -/

/-- A turn of a walk prolongs it, and goes down by one if it is taken. -/
theorem walkBack_walk (honest : Truthful tree poller.blockSource) (keeps : Keeps tree cache K)
    {k : κ} (hk : K k) {turn : Prop} [Decidable turn] {start a a' : ValidatedBlockHeader H}
    {l l' : List (ValidatedBlockHeader H)} (ha : tree.Known a) (walk : Walk tree.Builds start l a)
    {s s' : σ} (h : walkBack poller cache k turn l a s = (.ok (l', a'), s')) :
    tree.Known a' ∧ Walk tree.Builds start l' a' ∧
      if turn then a.height = a'.height + 1 else a' = a := by
  unfold walkBack at h
  split at h
  · rename_i hturn
    obtain ⟨p, s₁, hlook, h⟩ := Request.bind_eq_ok.mp h
    simp only [Request.pure_apply, Prod.mk.injEq, Except.ok.injEq] at h
    obtain ⟨⟨rfl, rfl⟩, -⟩ := h
    have hbuilds := lookUpPreviousHeader_builds honest keeps hk ha hlook
    exact ⟨hbuilds.parent, walk.snoc hbuilds, by simp [hturn, hbuilds.height]⟩
  · rename_i hturn
    simp only [Request.pure_apply, Prod.mk.injEq, Except.ok.injEq] at h
    obtain ⟨⟨rfl, rfl⟩, -⟩ := h
    exact ⟨ha, walk, by simp [hturn]⟩

omit [DecidableEq H] in
/-- The header that was not the lower one was walked back. -/
theorem lt_of_walkBack {current current' previous previous' : ValidatedBlockHeader H} {fuel : Nat}
    (hlower : if current.height ≤ previous.height then previous.height = previous'.height + 1
      else previous' = previous)
    (hlower' : if previous.height ≤ current.height then current.height = current'.height + 1
      else current' = current)
    (hfuel : current.height + previous.height < fuel + 1) :
    current'.height + previous'.height < fuel := by
  split at hlower <;> split at hlower'
  · omega
  · rw [hlower']
    omega
  · rw [hlower]
    omega
  · omega

/-- The loop ends before the two heights are used up, and the difference is two walks to one
header. -/
theorem findDifferenceLoop_spec (honest : Truthful tree poller.blockSource)
    (keeps : Keeps tree cache K) {k : κ} (hk : K k) {new old : ValidatedBlockHeader H} :
    ∀ (fuel : Nat) (disconnected connected : List (ValidatedBlockHeader H))
      (current previous : ValidatedBlockHeader H) (s : σ),
      tree.Known current → tree.Known previous → Walk tree.Builds new connected current →
      Walk tree.Builds old disconnected previous → current.height + previous.height < fuel →
      ∃ r s', findDifferenceLoop poller cache k fuel disconnected connected current previous s =
          some (r, s') ∧
        ∀ d, r = .ok d → Walk tree.Builds new d.connectedBlocks d.commonAncestor ∧
          Walk tree.Builds old d.disconnectedBlocks d.commonAncestor ∧
          tree.Known d.commonAncestor := by
  intro fuel
  induction fuel with
  | zero => intro _ _ _ _ _ _ _ _ _ hfuel; omega
  | succ fuel ih =>
    intro disconnected connected current previous s hcurrent hprevious hup hdown hfuel
    unfold findDifferenceLoop
    by_cases hmeet : current.blockHash = previous.blockHash
    · obtain rfl := hcurrent.eq hprevious hmeet
      refine ⟨_, s, by rw [if_pos hmeet], ?_⟩
      rintro d ⟨⟩
      exact ⟨hup, hdown, hcurrent⟩
    · rw [if_neg hmeet]
      rcases hback : walkBack poller cache k (current.height ≤ previous.height) disconnected
        previous s with ⟨e | ⟨disconnected', previous'⟩, s₁⟩
      · exact ⟨_, s₁, rfl, by simp⟩
      · dsimp only
        obtain ⟨hprevious', hdown', hlower⟩ := walkBack_walk honest keeps hk hprevious hdown hback
        rcases hback' : walkBack poller cache k (previous.height ≤ current.height) connected
          current s₁ with ⟨e | ⟨connected', current'⟩, s₂⟩
        · exact ⟨_, s₂, rfl, by simp⟩
        · dsimp only
          obtain ⟨hcurrent', hup', hlower'⟩ := walkBack_walk honest keeps hk hcurrent hup hback'
          exact ih disconnected' connected' current' previous' s₂ hcurrent' hprevious' hup' hdown'
            (lt_of_walkBack hlower hlower' hfuel)

/-- `find_difference` returns within as many rounds as the two headers are high. -/
theorem findDifference_returns (honest : Truthful tree poller.blockSource)
    (keeps : Keeps tree cache K) {k : κ} (hk : K k) {new old : ValidatedBlockHeader H} {fuel : Nat}
    (hnew : tree.Known new) (hold : tree.Known old) (hfuel : new.height + old.height < fuel)
    (s : σ) : ∃ found, findDifference poller cache fuel k new old s = some found := by
  obtain ⟨r, s', hfind, -⟩ := findDifferenceLoop_spec honest keeps hk fuel [] [] new old s hnew hold
    (.stay new) (.stay old) hfuel
  exact ⟨(r, s'), hfind⟩

/-! ## Taking a listener from one tip to another -/

/-- `I v l` says that the listener `l` is at the header `v`.  It is told of a block on top of that
without a panic, if `R` links the two. -/
def AttendsUp (R : ValidatedBlockHeader H → ValidatedBlockHeader H → Prop) (listen : Listen L H Tx)
    (I : ValidatedBlockHeader H → L → Prop) : Prop :=
  ∀ {a p l}, R a p → I p l → ∀ txdata, ∃ l',
    listen.filteredBlockConnected a.header txdata a.height l = some l' ∧ I a l'

/-- It is told of the block it is at going away, too. -/
structure Attends {c : Consensus H Tx} (tree : BlockTree c) (listen : Listen L H Tx)
    (I : ValidatedBlockHeader H → L → Prop) : Prop where
  connected : AttendsUp tree.Builds listen I
  disconnected : ∀ {a p l}, tree.Builds a p → I a l → ∃ l',
    listen.blockDisconnected a.header a.height l = some l' ∧ I p l'

variable {listen : Listen L H Tx} {I : ValidatedBlockHeader H → L → Prop}

theorem disconnectBlocks_spec (keeps : Keeps tree cache K)
    (attends : Attends tree listen I) {a b : ValidatedBlockHeader H}
    {blocks : List (ValidatedBlockHeader H)} (walk : Walk tree.Builds a blocks b) :
    ∀ (k : κ) (l : L), K k → I a l → ∃ k' l',
      disconnectBlocks cache listen blocks (k, l) = some (k', l') ∧ K k' ∧ I b l' := by
  induction walk with
  | stay a => intro k l hk hl; exact ⟨k, l, rfl, hk, hl⟩
  | back link _ ih =>
    intro k l hk hl
    obtain ⟨hk', hcached⟩ := keeps.blockDisconnected hk
    obtain ⟨l', hstep, hl'⟩ := attends.disconnected link hl
    obtain ⟨k'', l'', hrest, hk'', hl''⟩ := ih _ l' hk' hl'
    refine ⟨k'', l'', ?_, hk'', hl''⟩
    rw [disconnectBlocks]
    dsimp only
    rw [if_pos, hstep]
    · exact hrest
    · -- a header that was cached is this one: both are known by the same hash
      simp only [Option.all_eq_true, decide_eq_true_eq]
      intro v hv
      obtain ⟨hhash, hknown⟩ := hcached v hv
      exact hknown.eq link.child hhash

/-- Blocks are connected one on the other, up to the first the source does not give. -/
theorem connectLoop_spec (honest : Truthful tree poller.blockSource)
    (keeps : ∀ {k v}, K k → tree.Known v →
      ∃ k', cache.blockConnected k v.blockHash v = some k' ∧ K k')
    {R : ValidatedBlockHeader H → ValidatedBlockHeader H → Prop}
    (builds : ∀ {a p}, R a p → tree.Builds a p) (attends : AttendsUp R listen I) :
    ∀ (blocks : List (ValidatedBlockHeader H)) (newTip top : ValidatedBlockHeader H) (k : κ)
      (l : L) (s : σ), tree.Known newTip → Walk R top blocks.reverse newTip → K k →
      I newTip l → ∃ r k' l' s', connectLoop poller cache listen newTip blocks (k, l) s =
        some (r, (k', l'), s') ∧ K k' ∧
        match r with
        | .ok () => I top l'
        | .error (_, stopped) => ∃ v, stopped = some v ∧ tree.Known v ∧ I v l' := by
  intro blocks
  induction blocks with
  | nil =>
    intro newTip top k l s _ walk hk hl
    cases walk
    exact ⟨.ok (), k, l, s, rfl, hk, hl⟩
  | cons header blocks ih =>
    intro newTip top k l s htip walk hk hl
    rw [List.reverse_cons] at walk
    obtain ⟨hwalk, hlink⟩ := walk.of_snoc
    have hbuilds := builds hlink
    rcases hfetch : poller.fetchBlock header s with ⟨e | block, s₁⟩
    · exact ⟨.error (e, some newTip), k, l, s₁, by simp [connectLoop, hfetch], hk, newTip, rfl, htip,
        hl⟩
    · obtain ⟨k', hput, hk'⟩ := keeps hk hbuilds.child
      obtain ⟨l', hstep, hl'⟩ := attends hlink hl
        (block.txdata.zipIdx.map Prod.swap)
      obtain ⟨r, k'', l'', s', hrest, hk'', hr⟩ := ih header top k' l' s₁ hbuilds.child hwalk hk' hl'
      refine ⟨r, k'', l'', s', ?_, hk'', hr⟩
      have hblock : listen.blockConnected block header.height l = some l' := by
        rw [Listen.blockConnected, fetchBlock_header honest hbuilds.child hfetch]
        exact hstep
      simp [connectLoop, hfetch, hput, hblock, hrest]

theorem unboundedCache_blockConnected {k : H → Option (ValidatedBlockHeader H)}
    {v : ValidatedBlockHeader H} (hk : CachedHeaders tree k) (hv : tree.Known v) :
    ∃ k', unboundedCache.blockConnected k v.blockHash v = some k' ∧ CachedHeaders tree k' :=
  ⟨_, rfl, hk.insert hv⟩

/-- One synchronisation returns, and the listener is at the new tip, at the block the source did
not give the next one of, or where it was. -/
theorem synchronizeListener_spec (honest : Truthful tree poller.blockSource)
    (attends : Attends tree listen I) {fuel : Nat} {new old : ValidatedBlockHeader H}
    {k : H → Option (ValidatedBlockHeader H)} {l : L} (s : σ) (hnew : tree.Known new)
    (hold : tree.Known old) (hk : CachedHeaders tree k) (hl : I old l)
    (hfuel : new.height + old.height < fuel) :
    ∃ r k' l' s', synchronizeListener poller unboundedCache listen fuel new old (k, l) s =
        some (r, (k', l'), s') ∧ CachedHeaders tree k' ∧
      match r with
      | .ok () => I new l'
      | .error (_, some v) => tree.Known v ∧ I v l'
      | .error (_, none) => I old l' := by
  have keeps := keeps_unboundedCache tree
  obtain ⟨r, s₁, hfind, hspec⟩ := findDifferenceLoop_spec honest keeps hk fuel [] [] new old s
    hnew hold (.stay new) (.stay old) hfuel
  cases r with
  | error e =>
    exact ⟨.error (e, none), k, l, s₁, by simp [synchronizeListener, findDifference, hfind], hk, hl⟩
  | ok d =>
    obtain ⟨hup, hdown, hancestor⟩ := hspec d rfl
    obtain ⟨k₁, l₁, hdisconnect, hk₁, hl₁⟩ :=
      disconnectBlocks_spec keeps attends hdown k l hk hl
    obtain ⟨r, k₂, l₂, s₂, hconnect, hk₂, hr⟩ :=
      connectLoop_spec honest unboundedCache_blockConnected (fun h => h) attends.connected
        d.connectedBlocks.reverse d.commonAncestor new k₁ l₁ s₁ hancestor (by simpa using hup) hk₁ hl₁
    refine ⟨r, k₂, l₂, s₂, ?_, hk₂, ?_⟩
    · simp [synchronizeListener, findDifference, hfind, hdisconnect, connectBlocks, hconnect]
    · rcases r with ⟨e, stopped⟩ | ⟨⟩
      · obtain ⟨v, rfl, hv⟩ := hr
        exact hv
      · exact hr

/-! ## Polls -/

/-- The client's tip and its cache are headers of the tree, and the listener is at the tip. -/
structure InStep {c : Consensus H Tx} (tree : BlockTree c)
    (I : ValidatedBlockHeader H → L → Prop)
    (client : SpvClient (H → Option (ValidatedBlockHeader H)) L H) : Prop where
  tip : tree.Known client.chainTip
  cache : CachedHeaders tree client.headerCache
  listener : I client.chainTip client.chainListener

theorem updateChainTip_spec (honest : Truthful tree poller.blockSource)
    (attends : Attends tree listen I) {fuel : Nat} {best : ValidatedBlockHeader H}
    {client : SpvClient (H → Option (ValidatedBlockHeader H)) L H} (s : σ)
    (hclient : InStep tree I client) (hbest : tree.Known best)
    (hfuel : best.height + client.chainTip.height < fuel) :
    ∃ b client' s', client.updateChainTip poller unboundedCache listen fuel best s =
      some (b, client', s') ∧ InStep tree I client' := by
  obtain ⟨r, k, l, s', hsync, hk, hr⟩ := synchronizeListener_spec honest attends s hbest
    hclient.tip hclient.cache hclient.listener hfuel
  rcases r with ⟨e, _ | v⟩ | ⟨⟩
  · exact ⟨false, ⟨client.chainTip, k, l⟩, s', by simp [SpvClient.updateChainTip, hsync],
      hclient.tip, hk, hr⟩
  · by_cases hv : v.blockHash = client.chainTip.blockHash
    · -- then the listener has not moved either
      obtain rfl := hr.1.eq hclient.tip hv
      exact ⟨false, ⟨client.chainTip, k, l⟩, s', by simp [SpvClient.updateChainTip, hsync],
        hclient.tip, hk, hr.2⟩
    · exact ⟨true, ⟨v, k, l⟩, s', by simp [SpvClient.updateChainTip, hsync, hv], hr.1, hk, hr.2⟩
  · exact ⟨true, ⟨best, k, l⟩, s', by simp [SpvClient.updateChainTip, hsync], hbest, hk, hr⟩

/-- A poll returns if it is given the time, and leaves the listener in step. -/
theorem pollBestTip_spec (honest : Truthful tree poller.blockSource)
    (attends : Attends tree listen I)
    {client : SpvClient (H → Option (ValidatedBlockHeader H)) L H} (s : σ)
    (hclient : InStep tree I client) :
    ∃ enough, ∀ fuel, enough ≤ fuel → ∃ r client' s',
      client.pollBestTip poller unboundedCache listen fuel s = some (r, client', s') ∧
        InStep tree I client' := by
  rcases hpoll : poller.pollChainTip client.chainTip s with ⟨e | tip, s₁⟩
  · exact ⟨0, fun fuel _ => ⟨.error e, client, s₁, by simp [SpvClient.pollBestTip, hpoll], hclient⟩⟩
  · cases tip with
    | common =>
      exact ⟨0, fun fuel _ => ⟨.ok (.common, false), client, s₁,
        by simp [SpvClient.pollBestTip, hpoll], hclient⟩⟩
    | worse v =>
      exact ⟨0, fun fuel _ => ⟨.ok (.worse v, false), client, s₁,
        by simp [SpvClient.pollBestTip, hpoll], hclient⟩⟩
    | better v =>
      refine ⟨v.height + client.chainTip.height + 1, fun fuel hfuel => ?_⟩
      obtain ⟨b, client', s', hupdate, hclient'⟩ := updateChainTip_spec honest attends s₁ hclient
        (pollChainTip_better honest hpoll).1 (by omega : _ < fuel)
      exact ⟨.ok (.better v, b), client', s', by simp [SpvClient.pollBestTip, hpoll, hupdate],
        hclient'⟩

/-- A poll of the loop in `main.rs`, at some moment of the source: one that returns, and not with
an error, on which the loop ends. -/
def Polled (poller : ChainPoller σ H Tx) (listen : Listen L H Tx)
    (client client' : SpvClient (H → Option (ValidatedBlockHeader H)) L H) : Prop :=
  ∃ s tip s' enough, ∀ fuel, enough ≤ fuel →
    client.pollBestTip poller unboundedCache listen fuel s = some (.ok tip, client', s')

theorem InStep.polled (honest : Truthful tree poller.blockSource)
    (attends : Attends tree listen I)
    {client client' : SpvClient (H → Option (ValidatedBlockHeader H)) L H}
    (hclient : InStep tree I client) (h : Polled poller listen client client') :
    InStep tree I client' := by
  obtain ⟨s, tip, s', enough, hpoll⟩ := h
  obtain ⟨enough', hspec⟩ := pollBestTip_spec honest attends s hclient
  obtain ⟨r, client'', s'', hpoll', hclient'⟩ := hspec (max enough enough') (le_max_right _ _)
  have hsame := (hpoll _ (le_max_left _ _)).symm.trans hpoll'
  simp only [Option.some.injEq, Prod.mk.injEq] at hsame
  rw [hsame.2.1]
  exact hclient'

theorem InStep.polls (honest : Truthful tree poller.blockSource)
    (attends : Attends tree listen I)
    {client client' : SpvClient (H → Option (ValidatedBlockHeader H)) L H}
    (hclient : InStep tree I client)
    (h : Relation.ReflTransGen (Polled poller listen) client client') :
    InStep tree I client' := by
  induction h with
  | refl => exact hclient
  | tail _ hpoll ih => exact ih.polled honest attends hpoll

/-! ## The listeners of `main.rs` -/

theorem attends_channelManager {c : Consensus H Tx} (tree : BlockTree c) :
    Attends tree (channelManager c) fun v best => best = v.best where
  connected {a p l} hbuilds hl txdata := by
    subst hl
    refine ⟨a.best, ?_, rfl⟩
    simp [channelManager, ValidatedBlockHeader.best, hbuilds.link, hbuilds.height, hbuilds.hash]
  disconnected {a p l} hbuilds hl := by
    subst hl
    refine ⟨p.best, ?_, rfl⟩
    simp [channelManager, ValidatedBlockHeader.best, hbuilds.link, hbuilds.height, hbuilds.hash]

omit [DecidableEq H] in
theorem attends_channelMonitor {c : Consensus H Tx} (tree : BlockTree c) :
    Attends tree (channelMonitor c) fun v best => best = v.best where
  connected {a p l} hbuilds hl txdata := by
    refine ⟨a.best, ?_, rfl⟩
    simp [channelMonitor, ValidatedBlockHeader.best, hbuilds.hash]
  disconnected {a p l} hbuilds hl := by
    refine ⟨p.best, ?_, rfl⟩
    simp [channelMonitor, ValidatedBlockHeader.best, hbuilds.link, hbuilds.height]

/-- A step that every item of a list can take, all take. -/
theorem mapM_attends {f : L → Option L} {P Q : L → Prop}
    (step : ∀ l, P l → ∃ l', f l = some l' ∧ Q l') :
    ∀ (ls : List L), (∀ l ∈ ls, P l) →
      ∃ ls', ls.mapM f = some ls' ∧ (∀ l ∈ ls', Q l) ∧ ls'.length = ls.length := by
  intro ls
  induction ls with
  | nil => intro _; exact ⟨[], rfl, by simp, rfl⟩
  | cons l ls ih =>
    intro h
    obtain ⟨l', hl', hq⟩ := step l (h l (by simp))
    obtain ⟨ls', hls', hqs, hlength⟩ := ih fun m hm => h m (by simp [hm])
    refine ⟨l' :: ls', by simp [List.mapM_cons, hl', hls'], ?_, by simp [hlength]⟩
    intro m hm
    rcases List.mem_cons.mp hm with rfl | hm
    · exact hq
    · exact hqs m hm

omit [DecidableEq H] in
theorem attends_chainMonitor {c : Consensus H Tx} (tree : BlockTree c) :
    Attends tree (chainMonitor c) fun v monitors => ∀ m ∈ monitors, m = v.best where
  connected hbuilds hl txdata := by
    obtain ⟨ls, hmap, hls, -⟩ := mapM_attends
      (fun _ hm => (attends_channelMonitor tree).connected hbuilds hm txdata) _ hl
    exact ⟨ls, hmap, hls⟩
  disconnected hbuilds hl := by
    obtain ⟨ls, hmap, hls, -⟩ := mapM_attends
      (fun _ hm => (attends_channelMonitor tree).disconnected hbuilds hm) _ hl
    exact ⟨ls, hmap, hls⟩

omit [DecidableEq H] in
theorem Attends.pair {c : Consensus H Tx} {tree : BlockTree c} {M : Type} {listen' : Listen M H Tx}
    {J : ValidatedBlockHeader H → M → Prop}
    (first : Attends tree listen I) (second : Attends tree listen' J) :
    Attends tree (listen.pair listen') fun v l => I v l.1 ∧ J v l.2 where
  connected hbuilds hl txdata := by
    obtain ⟨l', hl', hi⟩ := first.connected hbuilds hl.1 txdata
    obtain ⟨m', hm', hj⟩ := second.connected hbuilds hl.2 txdata
    exact ⟨(l', m'), by simp [Listen.pair, hl', hm'], hi, hj⟩
  disconnected hbuilds hl := by
    obtain ⟨l', hl', hi⟩ := first.disconnected hbuilds hl.1
    obtain ⟨m', hm', hj⟩ := second.disconnected hbuilds hl.2
    exact ⟨(l', m'), by simp [Listen.pair, hl', hm'], hi, hj⟩

/-- The chain monitor's monitors and the channel manager are at a header. -/
def AtTip (v : ValidatedBlockHeader H) (l : List (BestBlock H) × BestBlock H) : Prop :=
  (∀ m ∈ l.1, m = v.best) ∧ l.2 = v.best

theorem attends_chainListener {c : Consensus H Tx} (tree : BlockTree c) :
    Attends tree (chainListener c) AtTip :=
  (attends_chainMonitor tree).pair (attends_channelManager tree)

/-- However the source behaved, the monitors watched from the start and the channel manager are at
the client's tip after every poll, and the next poll returns: it tells them of the blocks in the
order that they assert. -/
theorem listeners_at_tip (honest : Truthful tree poller.blockSource)
    {client client' : SpvClient (H → Option (ValidatedBlockHeader H))
      (List (BestBlock H) × BestBlock H) H}
    (start : InStep tree AtTip client)
    (run : Relation.ReflTransGen (Polled poller (chainListener poller.consensus)) client client') :
    AtTip client'.chainTip client'.chainListener ∧
      ∀ s, ∃ enough, ∀ fuel, enough ≤ fuel → ∃ r client'' s',
        client'.pollBestTip poller unboundedCache (chainListener poller.consensus) fuel s =
          some (r, client'', s') ∧ AtTip client''.chainTip client''.chainListener := by
  have attends := attends_chainListener tree
  have hclient' := start.polls honest attends run
  refine ⟨hclient'.listener, fun s => ?_⟩
  obtain ⟨enough, hpoll⟩ := pollBestTip_spec honest attends s hclient'
  refine ⟨enough, fun fuel hfuel => ?_⟩
  obtain ⟨r, client'', s', hr, hclient''⟩ := hpoll fuel hfuel
  exact ⟨r, client'', s', hr, hclient''.listener⟩

/-! ## A source that answers -/

/-- A chain that passes the checks: the work is there, every block builds on another down to a
single genesis block. -/
structure Valid (poller : ChainPoller σ H Tx) (tree : BlockTree poller.consensus) : Prop where
  pow : ∀ {h d}, tree.header h = some d →
    poller.consensus.validatePow d.header (poller.consensus.target d.header) = .ok ()
  builds : ∀ {a}, tree.Known a → a.height ≠ 0 →
    ∃ p, tree.Known p ∧ a.checkBuildsOn poller.consensus p poller.network = .ok ()
  genesis : ∀ {a b}, tree.Known a → tree.Known b → a.height = 0 → b.height = 0 →
    a.blockHash = b.blockHash

/-- A source that answers for every header of the tree as long as it is in a state in `P`, with
`best` as its best block. -/
structure Serves (poller : ChainPoller σ H Tx) (tree : BlockTree poller.consensus)
    (P : σ → Prop) (best : H) : Prop where
  header : ∀ {s h d} (hint), P s → tree.header h = some d → ∃ s', P s' ∧
    poller.blockSource.getHeader h hint s = (.ok d, s')
  block : ∀ {s h d}, P s → tree.header h = some d → ∃ b s', P s' ∧
    poller.blockSource.getBlock h s = (.ok b, s') ∧ b.header = d.header ∧
    poller.consensus.checkMerkleRoot b = true ∧ poller.consensus.checkWitnessCommitment b = true
  best : ∀ {s}, P s → ∃ hint s', P s' ∧ poller.blockSource.getBestBlock s = (.ok (best, hint), s')

theorem Valid.checkPow (valid : Valid poller tree) {h : H} {d : BlockHeaderData H}
    (hd : tree.header h = some d) : checkPow poller.consensus d.header = .ok () := by
  simp [BlockSync.checkPow, valid.pow hd]

variable {P : σ → Prop} {bestHash : H}

theorem Serves.header_known (serves : Serves poller tree P bestHash) (valid : Valid poller tree)
    {v : ValidatedBlockHeader H} (hv : tree.Known v) (hint : Option Nat) {s : σ} (hs : P s) :
    ∃ s', P s' ∧ poller.header v.blockHash hint s = (.ok v, s') := by
  obtain ⟨s', hs', hget⟩ := serves.header hint hs hv
  refine ⟨s', hs', ?_⟩
  have hvalidate : v.toBlockHeaderData.validate poller.consensus v.blockHash = .ok v := by
    simp [BlockHeaderData.validate, valid.checkPow hv, tree.hash hv, bind, Except.bind]
  simp [ChainPoller.header, Request.bind_apply, hget, hvalidate]

theorem Serves.fetchBlock (serves : Serves poller tree P bestHash) (valid : Valid poller tree)
    {v : ValidatedBlockHeader H} (hv : tree.Known v) {s : σ} (hs : P s) :
    ∃ b s', P s' ∧ poller.fetchBlock v s = (.ok b, s') := by
  obtain ⟨b, s', hs', hget, hheader, hmerkle, hwitness⟩ := serves.block hs hv
  refine ⟨b, s', hs', ?_⟩
  have hvalidate : b.validate poller.consensus v.blockHash = .ok b := by
    simp [Block.validate, hheader, valid.checkPow hv, tree.hash hv, hmerkle, hwitness, bind,
      Except.bind]
  simp [ChainPoller.fetchBlock, Request.bind_apply, hget, hvalidate]

/-- The parent of a block that is not the genesis block is found. -/
theorem Serves.lookUpPreviousHeader (serves : Serves poller tree P bestHash)
    (valid : Valid poller tree)
    (cache : Cache κ H) (k : κ) {a : ValidatedBlockHeader H} (ha : tree.Known a)
    (hheight : a.height ≠ 0) {s : σ} (hs : P s) :
    ∃ p s', P s' ∧ lookUpPreviousHeader poller cache k a s = (.ok p, s') := by
  unfold BlockSync.lookUpPreviousHeader
  cases hcached : cache.lookUp k a.header.prevBlockhash with
  | some q => exact ⟨q, s, hs, rfl⟩
  | none =>
    obtain ⟨p, hp, hbuilds⟩ := valid.builds ha hheight
    obtain ⟨s', hs', hheader⟩ := serves.header_known valid hp (some (a.height - 1)) hs
    refine ⟨p, s', hs', ?_⟩
    simp [ChainPoller.lookUpPreviousHeader, hheight, checkBuildsOn_link hbuilds,
      Request.bind_apply, hheader, hbuilds]

theorem Serves.walkBack (serves : Serves poller tree P bestHash) (valid : Valid poller tree)
    (cache : Cache κ H) (k : κ) (turn : Prop) [Decidable turn]
    (l : List (ValidatedBlockHeader H)) {a : ValidatedBlockHeader H} (ha : tree.Known a)
    (hheight : turn → a.height ≠ 0) {s : σ} (hs : P s) :
    ∃ r s', P s' ∧ walkBack poller cache k turn l a s = (.ok r, s') := by
  unfold BlockSync.walkBack
  by_cases hturn : turn
  · obtain ⟨p, s', hs', hlook⟩ := serves.lookUpPreviousHeader valid cache k ha (hheight hturn) hs
    exact ⟨(l ++ [a], p), s', hs', by simp [hturn, Request.bind_apply, hlook]⟩
  · exact ⟨(l, a), s, hs, by simp [hturn]⟩

/-- Two branches of the tree meet, at the genesis block if not before. -/
theorem Serves.findDifferenceLoop (honest : Truthful tree poller.blockSource)
    (serves : Serves poller tree P bestHash) (valid : Valid poller tree)
    (keeps : Keeps tree cache K) {k : κ}
    (hk : K k) {new old : ValidatedBlockHeader H} :
    ∀ (fuel : Nat) (disconnected connected : List (ValidatedBlockHeader H))
      (current previous : ValidatedBlockHeader H) (s : σ), P s →
      tree.Known current → tree.Known previous → Walk tree.Builds new connected current →
      Walk tree.Builds old disconnected previous → current.height + previous.height < fuel →
      ∃ d s', P s' ∧ findDifferenceLoop poller cache k fuel disconnected connected current previous
        s = some (.ok d, s') := by
  intro fuel
  induction fuel with
  | zero => intro _ _ _ _ _ _ _ _ _ _ hfuel; omega
  | succ fuel ih =>
    intro disconnected connected current previous s hs hcurrent hprevious hup hdown hfuel
    unfold BlockSync.findDifferenceLoop
    by_cases hmeet : current.blockHash = previous.blockHash
    · exact ⟨_, s, hs, by rw [if_pos hmeet]⟩
    · rw [if_neg hmeet]
      -- not both are the genesis block
      have hheight : current.height ≠ 0 ∨ previous.height ≠ 0 := by
        by_contra hzero
        simp only [not_or, not_not] at hzero
        exact hmeet (valid.genesis hcurrent hprevious hzero.1 hzero.2)
      obtain ⟨⟨disconnected', previous'⟩, s₁, hs₁, hback⟩ := serves.walkBack valid cache k
        (current.height ≤ previous.height) disconnected hprevious (by omega) hs
      obtain ⟨⟨connected', current'⟩, s₂, hs₂, hback'⟩ := serves.walkBack valid cache k
        (previous.height ≤ current.height) connected hcurrent (by omega) hs₁
      rw [hback]
      dsimp only
      rw [hback']
      dsimp only
      obtain ⟨hprevious', hdown', hlower⟩ := walkBack_walk honest keeps hk hprevious hdown hback
      obtain ⟨hcurrent', hup', hlower'⟩ := walkBack_walk honest keeps hk hcurrent hup hback'
      exact ih disconnected' connected' current' previous' s₂ hs₂ hcurrent' hprevious' hup' hdown'
        (lt_of_walkBack hlower hlower' hfuel)

/-- With every block given, all of them are connected. -/
theorem Serves.connectLoop (serves : Serves poller tree P bestHash) (valid : Valid poller tree)
    (listen : Listen L H Tx) :
    ∀ (blocks : List (ValidatedBlockHeader H)) (newTip : ValidatedBlockHeader H) (at_ : κ × L)
      (s : σ) r at' s', (∀ v ∈ blocks, tree.Known v) → P s →
      connectLoop poller cache listen newTip blocks at_ s = some (r, at', s') → r = .ok () := by
  intro blocks
  induction blocks with
  | nil =>
    intro newTip at_ s r at' s' _ _ h
    simp only [BlockSync.connectLoop, Option.some.injEq, Prod.mk.injEq] at h
    exact h.1.symm
  | cons header blocks ih =>
    rintro newTip ⟨k, l⟩ s r at' s' hknown hs h
    obtain ⟨b, s₁, hs₁, hfetch⟩ := serves.fetchBlock valid (hknown header (by simp)) hs
    simp only [BlockSync.connectLoop, hfetch, Option.bind_eq_bind, Option.bind_eq_some_iff] at h
    obtain ⟨k', -, l', -, h⟩ := h
    exact ih header (k', l') s₁ r at' s' (fun v hv => hknown v (by simp [hv])) hs₁ h

/-- A synchronisation that returns has succeeded then. -/
theorem Serves.synchronizeListener_ok (serves : Serves poller tree P bestHash)
    (honest : Truthful tree poller.blockSource) (valid : Valid poller tree)
    (keeps : Keeps tree cache K) {fuel : Nat} {new old : ValidatedBlockHeader H} {k : κ} {l : L}
    {s : σ} (hk : K k) (hs : P s) (hnew : tree.Known new) (hold : tree.Known old)
    (hfuel : new.height + old.height < fuel) {r at' s'}
    (h : synchronizeListener poller cache listen fuel new old (k, l) s = some (r, at', s')) :
    r = .ok () := by
  obtain ⟨d, s₁, hs₁, hfind⟩ := Serves.findDifferenceLoop honest serves valid keeps hk fuel [] []
    new old s hs hnew hold (.stay new) (.stay old) hfuel
  obtain ⟨_, _, hfind', hwalks⟩ := findDifferenceLoop_spec honest keeps hk fuel [] [] new old s
    hnew hold (.stay new) (.stay old) hfuel
  obtain ⟨rfl, -⟩ := Prod.mk.inj (Option.some.inj (hfind'.symm.trans hfind))
  simp only [BlockSync.synchronizeListener, findDifference, hfind, Option.bind_eq_bind,
    Option.bind_eq_some_iff] at h
  obtain ⟨at_, -, hconnect⟩ := h
  refine serves.connectLoop valid listen _ _ at_ s₁ r _ _ ?_ hs₁ hconnect
  intro v hv
  obtain ⟨p, hbuilds⟩ := (hwalks d rfl).1.exists_parent v (List.mem_reverse.mp hv)
  exact hbuilds.child

theorem Serves.pollChainTip (serves : Serves poller tree P bestHash) (valid : Valid poller tree)
    {tip best : ValidatedBlockHeader H} (htip : tree.Known tip) (hbest : tree.Known best)
    (hhash : best.blockHash = bestHash) (hwork : tip.chainwork < best.chainwork) {s : σ}
    (hs : P s) : ∃ s', P s' ∧ poller.pollChainTip tip s = (.ok (.better best), s') := by
  obtain ⟨hint, s₁, hs₁, hget⟩ := serves.best hs
  obtain ⟨s₂, hs₂, hheader⟩ := serves.header_known valid hbest hint hs₁
  refine ⟨s₂, hs₂, ?_⟩
  have hne : best.blockHash ≠ tip.blockHash := by
    intro heq
    rw [hbest.eq htip heq] at hwork
    exact lt_irrefl _ hwork
  subst hhash
  simp [ChainPoller.pollChainTip, Request.bind_apply, hget, tree.hash htip, hne, hheader, hwork]

/-- Whatever went wrong in the polls before, one poll that the source answers takes the client and
its listeners to the source's best block, if that has more work. -/
theorem poll_reaches_best (honest : Truthful tree poller.blockSource)
    (serves : Serves poller tree P bestHash) (valid : Valid poller tree)
    {client client' : SpvClient (H → Option (ValidatedBlockHeader H))
      (List (BestBlock H) × BestBlock H) H}
    (start : InStep tree AtTip client)
    (run : Relation.ReflTransGen (Polled poller (chainListener poller.consensus)) client client')
    {best : ValidatedBlockHeader H} (hbest : tree.Known best) (hhash : best.blockHash = bestHash)
    (hwork : client'.chainTip.chainwork < best.chainwork) {s : σ} (hs : P s) {fuel : Nat}
    (hfuel : best.height + client'.chainTip.height < fuel) :
    ∃ k l s', client'.pollBestTip poller unboundedCache (chainListener poller.consensus) fuel s =
      some (.ok (.better best, true), ⟨best, k, l⟩, s') ∧ AtTip best l := by
  have attends := attends_chainListener tree
  have hclient' := start.polls honest attends run
  obtain ⟨s₁, hs₁, hpoll⟩ := serves.pollChainTip valid hclient'.tip hbest hhash hwork hs
  obtain ⟨r, k, l, s', hsync, -, hl⟩ := synchronizeListener_spec honest attends s₁ hbest
    hclient'.tip hclient'.cache hclient'.listener hfuel
  obtain rfl := serves.synchronizeListener_ok honest valid (keeps_unboundedCache tree)
    hclient'.cache hs₁ hbest hclient'.tip hfuel hsync
  exact ⟨k, l, s', by simp [SpvClient.pollBestTip, hpoll, SpvClient.updateChainTip, hsync], hl⟩

end

/-! ## A fork

Blocks 1 and 2 are on the genesis block 0, and block 3 on block 2. -/

def forkHeader (prev nonce : Nat) : BlockHeader Nat := ⟨1, prev, 0, 0, 0, .ofNat nonce⟩

def forkConsensus : Consensus Nat Unit where
  blockHash header := header.nonce.toNat
  target _ := 0
  validatePow _ _ := .ok ()
  work _ := 1
  checkMerkleRoot _ := true
  checkWitnessCommitment _ := true

def forkHeaders : List (BlockHeaderData Nat) :=
  [⟨forkHeader 9 0, 0, 1⟩, ⟨forkHeader 0 1, 1, 2⟩, ⟨forkHeader 0 2, 1, 2⟩, ⟨forkHeader 2 3, 2, 3⟩]

theorem forkHeaders_cases {h : Nat} {d : BlockHeaderData Nat} (hd : forkHeaders[h]? = some d) :
    (h, d) ∈ [(0, ⟨forkHeader 9 0, 0, 1⟩), (1, ⟨forkHeader 0 1, 1, 2⟩),
      (2, ⟨forkHeader 0 2, 1, 2⟩), (3, ⟨forkHeader 2 3, 2, 3⟩)] := by
  rcases h with _ | _ | _ | _ | h
  all_goals simp_all [forkHeaders]

/-- A source that has the four blocks and always answers. -/
def forkSource : BlockSource Unit Nat Unit where
  getHeader h _ s := (match forkHeaders[h]? with
    | some d => .ok d
    | none => .error ⟨.transient, "header not found"⟩, s)
  getBlock h s := (match forkHeaders[h]? with
    | some d => .ok ⟨d.header, [()]⟩
    | none => .error ⟨.transient, "block not found"⟩, s)
  getBestBlock s := (.ok (3, some 2), s)

def forkPoller : ChainPoller Unit Nat Unit := ⟨forkConsensus, forkSource, .testnet⟩

def forkTree : BlockTree forkPoller.consensus where
  header h := forkHeaders[h]?
  hash hd := by
    have hcases := forkHeaders_cases hd
    fin_cases hcases <;> rfl
  height hd hp := by
    have hcases := forkHeaders_cases hd
    fin_cases hcases <;> simp_all [forkHeaders, forkHeader] <;> subst hp <;> rfl

theorem forkSource_truthful : Truthful forkTree forkPoller.blockSource where
  header {h hint s d s'} hget _ := by
    simp only [forkPoller, forkSource, Prod.mk.injEq] at hget
    cases hd : forkHeaders[h]? with
    | none => simp [hd] at hget
    | some e =>
      obtain rfl : e = d := by simpa [hd] using hget.1
      exact hd
  block {h s b s' d} hget _ hd := by
    have hd' : forkHeaders[h]? = some d := hd
    simp only [forkPoller, forkSource, hd', Prod.mk.injEq, Except.ok.injEq] at hget
    rw [← hget.1]

def forkGenesis : ValidatedBlockHeader Nat := ⟨⟨forkHeader 9 0, 0, 1⟩, 0⟩

def forkSecond : ValidatedBlockHeader Nat := ⟨⟨forkHeader 0 2, 1, 2⟩, 2⟩

def forkBest : ValidatedBlockHeader Nat := ⟨⟨forkHeader 2 3, 2, 3⟩, 3⟩

theorem forkGenesis_known : forkTree.Known forkGenesis := rfl

theorem forkSecond_known : forkTree.Known forkSecond := rfl

theorem forkBest_known : forkTree.Known forkBest := rfl

/-- The client at block 1, with two monitors. -/
def forkClient : SpvClient (Nat → Option (ValidatedBlockHeader Nat))
    (List (BestBlock Nat) × BestBlock Nat) Nat :=
  ⟨⟨⟨forkHeader 0 1, 1, 2⟩, 1⟩, fun _ => none, [⟨1, 1⟩, ⟨1, 1⟩], ⟨1, 1⟩⟩

theorem forkClient_inStep : InStep forkTree AtTip forkClient where
  tip := rfl
  cache := by intro h v hv; simp [forkClient] at hv
  listener := ⟨by simp [forkClient, ValidatedBlockHeader.best], rfl⟩

theorem forkPoller_valid : Valid forkPoller forkTree where
  pow _ := rfl
  builds {a} ha hheight := by
    obtain ⟨d, h⟩ := a
    have hcases := forkHeaders_cases ha
    fin_cases hcases
    · exact absurd rfl hheight
    · exact ⟨⟨⟨forkHeader 9 0, 0, 1⟩, 0⟩, rfl, rfl⟩
    · exact ⟨⟨⟨forkHeader 9 0, 0, 1⟩, 0⟩, rfl, rfl⟩
    · exact ⟨⟨⟨forkHeader 0 2, 1, 2⟩, 2⟩, rfl, rfl⟩
  genesis {a b} ha hb hheight hheight' := by
    have hzero : ∀ v : ValidatedBlockHeader Nat, forkTree.Known v → v.height = 0 →
        v.blockHash = 0 := by
      rintro ⟨d, h⟩ hv hheight
      have hcases := forkHeaders_cases hv
      fin_cases hcases <;> first | rfl | simp at hheight
    rw [hzero a ha hheight, hzero b hb hheight']

theorem forkPoller_serves : Serves forkPoller forkTree (fun _ => True) 3 where
  header {s h d} hint _ hd := by
    have hd' : forkHeaders[h]? = some d := hd
    exact ⟨s, trivial, by simp [forkPoller, forkSource, hd']⟩
  block {s h d} _ hd := by
    have hd' : forkHeaders[h]? = some d := hd
    exact ⟨⟨d.header, [()]⟩, s, trivial, by simp [forkPoller, forkSource, hd'], rfl, rfl, rfl⟩
  best {s} _ := ⟨some 2, s, trivial, rfl⟩

/-- The client once it has left block 1 for blocks 2 and 3. -/
def forkMoved : SpvClient (Nat → Option (ValidatedBlockHeader Nat))
    (List (BestBlock Nat) × BestBlock Nat) Nat :=
  ⟨forkBest, Function.update (Function.update (Function.update (fun _ => none) 1 none) 2
    (some forkSecond)) 3 (some forkBest), [⟨3, 2⟩, ⟨3, 2⟩], ⟨3, 2⟩⟩

theorem polled_forkMoved :
    Polled forkPoller (chainListener forkPoller.consensus) forkClient forkMoved := by
  refine ⟨(), (.better forkBest, true), (), 4, fun fuel hfuel => ?_⟩
  obtain ⟨fuel, rfl⟩ := Nat.exists_eq_add_of_le' hfuel
  rfl

/-- The monitors and the manager of `forkClient` have followed it to block 3, off block 1. -/
theorem listeners_at_tip_of_fork :
    AtTip forkClient.chainTip forkClient.chainListener ∧
      forkMoved.chainTip ≠ forkClient.chainTip ∧
      AtTip forkMoved.chainTip forkMoved.chainListener ∧
      ∀ s, ∃ enough, ∀ fuel, enough ≤ fuel → ∃ r client s',
        forkMoved.pollBestTip forkPoller unboundedCache (chainListener forkPoller.consensus) fuel
          s = some (r, client, s') ∧ AtTip client.chainTip client.chainListener :=
  ⟨forkClient_inStep.listener, by decide,
    listeners_at_tip forkSource_truthful forkClient_inStep (.single polled_forkMoved)⟩

/-- Block 1 goes away, and blocks 2 and 3 come. -/
theorem poll_reaches_best_of_fork :
    ∃ k l s', forkClient.pollBestTip forkPoller unboundedCache
        (chainListener forkPoller.consensus) 4 () =
      some (.ok (.better forkBest, true), ⟨forkBest, k, l⟩, s') ∧ AtTip forkBest l :=
  poll_reaches_best forkSource_truthful forkPoller_serves forkPoller_valid forkClient_inStep .refl
    forkBest_known rfl (by decide) trivial (by decide)

end BlockSync
end HiddenLightning
