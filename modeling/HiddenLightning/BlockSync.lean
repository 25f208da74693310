import HiddenLightning.ParentLinks
import HiddenLightning.StartupArgs

/-! # Following the chain

`lightning-block-sync` keeps the node's listeners in step with the chain a block source reports.
`SpvClient::poll_best_tip` asks the source for its best block; if that has more work than the tip
the client is at, `ChainNotifier::find_difference` walks both tips back to where they meet, and the
listeners are taken down one branch and up the other.  `init::synchronize_listeners` does the same
at a restart for listeners that stopped at different blocks.

The source is asked over a network.  It is a state of its own here, `σ`, that any request may
change, so that the answers may be errors and may differ from one request to the next.  The hash
and the checks of a block come from the `bitcoin` crate and are parameters. -/
namespace HiddenLightning
namespace BlockSync

/-! ## Headers and blocks -/

/-- `bitcoin::BlockHeader`. -/
structure BlockHeader (H : Type) where
  version : Int32
  prevBlockhash : H
  merkleRoot : H
  time : UInt32
  bits : UInt32
  nonce : UInt32
deriving DecidableEq

/-- `bitcoin::Block`. -/
structure Block (H Tx : Type) where
  header : BlockHeader H
  txdata : List Tx
deriving DecidableEq

/-- What the `bitcoin` crate computes of headers and blocks. -/
structure Consensus (H Tx : Type) where
  blockHash : BlockHeader H → H
  target : BlockHeader H → Nat
  validatePow : BlockHeader H → Nat → Except String Unit
  work : BlockHeader H → Nat
  checkMerkleRoot : Block H Tx → Bool
  checkWitnessCommitment : Block H Tx → Bool

/-- A header with the height and the work the source claims for it. -/
structure BlockHeaderData (H : Type) where
  header : BlockHeader H
  height : Nat
  chainwork : Nat
deriving DecidableEq

/-- A header that was checked against the hash it was asked for by. -/
structure ValidatedBlockHeader (H : Type) extends BlockHeaderData H where
  blockHash : H
deriving DecidableEq

inductive BlockSourceErrorKind where
  | persistent
  | transient
deriving DecidableEq

structure BlockSourceError where
  kind : BlockSourceErrorKind
  error : String
deriving DecidableEq

variable {H Tx σ κ L : Type}

/-- `BlockSourceError::persistent`. -/
def persistent (error : String) : BlockSourceError := ⟨.persistent, error⟩

/-- The proof of work of a header, as both `validate` functions check it first. -/
def checkPow (c : Consensus H Tx) (header : BlockHeader H) : Except BlockSourceError Unit :=
  match c.validatePow header (c.target header) with
  | .ok () => .ok ()
  | .error e => .error (persistent e)

/-- `BlockHeaderData::validate`. -/
def BlockHeaderData.validate [DecidableEq H] (c : Consensus H Tx) (d : BlockHeaderData H)
    (blockHash : H) : Except BlockSourceError (ValidatedBlockHeader H) := do
  checkPow c d.header
  if c.blockHash d.header ≠ blockHash then .error (persistent "invalid block hash")
  else .ok { d with blockHash }

/-- `Block::validate`, for the block itself: what it is wrapped in adds the hash it was asked for
by. -/
def Block.validate [DecidableEq H] (c : Consensus H Tx) (block : Block H Tx) (blockHash : H) :
    Except BlockSourceError (Block H Tx) := do
  checkPow c block.header
  if c.blockHash block.header ≠ blockHash then .error (persistent "invalid block hash")
  else if !c.checkMerkleRoot block then .error (persistent "invalid merkle root")
  else if !c.checkWitnessCommitment block then .error (persistent "invalid witness commitment")
  else .ok block

/-- `check_builds_on`.  Work is a `Uint256`; the heights are compared only if the upper one is not
0, so that the sum of the lower one may as well be unbounded. -/
def ValidatedBlockHeader.checkBuildsOn [DecidableEq H] (c : Consensus H Tx)
    (header previous : ValidatedBlockHeader H) (network : BitcoinNetwork) :
    Except BlockSourceError Unit :=
  let work := c.work header.header
  let previousWork := c.work previous.header
  if header.header.prevBlockhash ≠ previous.blockHash then
    .error (persistent "invalid previous block hash")
  else if header.height ≠ previous.height + 1 then
    .error (persistent "invalid block height")
  else if header.chainwork ≠ (previous.chainwork + work) % 2 ^ 256 then
    .error (persistent "invalid chainwork")
  else if network = .bitcoin ∧ header.height % 2016 = 0 ∧
      (previousWork * 4 % 2 ^ 256 < work ∨ work < previousWork / 4) then
    .error (persistent "invalid difficulty transition")
  else if network = .bitcoin ∧ header.height % 2016 ≠ 0 ∧
      header.header.bits ≠ previous.header.bits then
    .error (persistent "invalid difficulty")
  else .ok ()

/-! ## Requests -/

/-- A request to the source: it may fail, and leaves the source in some state. -/
def Request (σ α : Type) : Type := σ → Except BlockSourceError α × σ

namespace Request

instance : Monad (Request σ) where
  pure a := fun s => (.ok a, s)
  bind x f := fun s =>
    match x s with
    | (.ok a, s') => f a s'
    | (.error e, s') => (.error e, s')

/-- A result that asks for nothing. -/
def ofExcept {α : Type} (x : Except BlockSourceError α) : Request σ α := fun s => (x, s)

theorem bind_apply {α β : Type} (x : Request σ α) (f : α → Request σ β) (s : σ) :
    (x >>= f) s = match x s with
      | (.ok a, s') => f a s'
      | (.error e, s') => (.error e, s') := rfl

@[simp] theorem pure_apply {α : Type} (a : α) (s : σ) :
    (pure a : Request σ α) s = (.ok a, s) := rfl

@[simp] theorem ofExcept_apply {α : Type} (x : Except BlockSourceError α) (s : σ) :
    (ofExcept x : Request σ α) s = (x, s) := rfl

/-- A chain of requests succeeds if each of them does. -/
theorem bind_eq_ok {α β : Type} {x : Request σ α} {f : α → Request σ β} {s s' : σ} {b : β} :
    (x >>= f) s = (.ok b, s') ↔ ∃ a s₁, x s = (.ok a, s₁) ∧ f a s₁ = (.ok b, s') := by
  rw [bind_apply]
  rcases x s with ⟨e | a, s₁⟩ <;> simp

end Request

/-- `BlockSource`. -/
structure BlockSource (σ H Tx : Type) where
  getHeader : H → Option Nat → Request σ (BlockHeaderData H)
  getBlock : H → Request σ (Block H Tx)
  getBestBlock : Request σ (H × Option Nat)

/-! ## `ChainPoller` -/

/-- `ChainTip`: the source's tip beside the one that is known. -/
inductive ChainTip (H : Type) where
  | common
  | better (chainTip : ValidatedBlockHeader H)
  | worse (chainTip : ValidatedBlockHeader H)
deriving DecidableEq

/-- What a `ChainPoller` works with. -/
structure ChainPoller (σ H Tx : Type) where
  consensus : Consensus H Tx
  blockSource : BlockSource σ H Tx
  network : BitcoinNetwork

section
variable [DecidableEq H] (poller : ChainPoller σ H Tx)

/-- The header of a hash, asked for and checked. -/
def ChainPoller.header (hash : H) (hint : Option Nat) : Request σ (ValidatedBlockHeader H) := do
  let data ← poller.blockSource.getHeader hash hint
  Request.ofExcept (data.validate poller.consensus hash)

/-- `poll_chain_tip`. -/
def ChainPoller.pollChainTip (best : ValidatedBlockHeader H) : Request σ (ChainTip H) := do
  let (blockHash, height) ← poller.blockSource.getBestBlock
  if blockHash = poller.consensus.blockHash best.header then
    return .common
  else
    let chainTip ← poller.header blockHash height
    if best.chainwork < chainTip.chainwork then
      return .better chainTip
    else
      return .worse chainTip

/-- `ChainPoller::look_up_previous_header`. -/
def ChainPoller.lookUpPreviousHeader (header : ValidatedBlockHeader H) :
    Request σ (ValidatedBlockHeader H) := do
  if header.height = 0 then
    Request.ofExcept (.error (persistent "genesis block reached"))
  else
    let previous ← poller.header header.header.prevBlockhash (some (header.height - 1))
    Request.ofExcept (header.checkBuildsOn poller.consensus previous poller.network)
    return previous

/-- `fetch_block`. -/
def ChainPoller.fetchBlock (header : ValidatedBlockHeader H) : Request σ (Block H Tx) := do
  let block ← poller.blockSource.getBlock header.blockHash
  Request.ofExcept (block.validate poller.consensus header.blockHash)

/-- `validate_best_block_header`. -/
def ChainPoller.validateBestBlockHeader : Request σ (ValidatedBlockHeader H) := do
  let (blockHash, height) ← poller.blockSource.getBestBlock
  poller.header blockHash height

end

/-! ## Caches and listeners -/

/-- `Cache`.  `none` is a call that panics. -/
structure Cache (κ H : Type) where
  lookUp : κ → H → Option (ValidatedBlockHeader H)
  blockConnected : κ → H → ValidatedBlockHeader H → Option κ
  blockDisconnected : κ → H → Option (ValidatedBlockHeader H) × κ

/-- `UnboundedCache`: a map from hashes to headers. -/
def unboundedCache [DecidableEq H] : Cache (H → Option (ValidatedBlockHeader H)) H where
  lookUp k hash := k hash
  blockConnected k hash header := some (Function.update k hash (some header))
  blockDisconnected k hash := (k hash, Function.update k hash none)

/-- `ReadOnlyCache`: nothing is taken out, and nothing may be put in. -/
def readOnlyCache (cache : Cache κ H) : Cache κ H where
  lookUp := cache.lookUp
  blockConnected _ _ _ := none
  blockDisconnected k _ := (none, k)

/-- `chain::Listen`, for a listener whose state is in `L`.  `none` is a call that panics. -/
structure Listen (L H Tx : Type) where
  filteredBlockConnected : BlockHeader H → List (Nat × Tx) → Nat → L → Option L
  blockDisconnected : BlockHeader H → Nat → L → Option L

/-- `Listen::block_connected`: every transaction, with its place in the block. -/
def Listen.blockConnected (listen : Listen L H Tx) (block : Block H Tx) (height : Nat) :
    L → Option L :=
  listen.filteredBlockConnected block.header (block.txdata.zipIdx.map Prod.swap) height

/-- `Listen` for a pair: the first, then the second. -/
def Listen.pair {M : Type} (first : Listen L H Tx) (second : Listen M H Tx) :
    Listen (L × M) H Tx where
  filteredBlockConnected header txdata height := fun (l, m) => do
    return (← first.filteredBlockConnected header txdata height l,
      ← second.filteredBlockConnected header txdata height m)
  blockDisconnected header height := fun (l, m) => do
    return (← first.blockDisconnected header height l, ← second.blockDisconnected header height m)

/-! ## The listeners of `main.rs` -/

/-- `BestBlock`. -/
structure BestBlock (H : Type) where
  blockHash : H
  height : Nat
deriving DecidableEq

/-- The best block a header is. -/
def ValidatedBlockHeader.best (v : ValidatedBlockHeader H) : BestBlock H := ⟨v.blockHash, v.height⟩

/-- `Listen` for `ChannelManager`, as far as its best block goes.  The heights are `u32`, and
`height - 1` of a block at height 0 is an overflow. -/
def channelManager [DecidableEq H] (c : Consensus H Tx) : Listen (BestBlock H) H Tx where
  filteredBlockConnected header _ height best :=
    if best.blockHash = header.prevBlockhash ∧ best.height + 1 = height then
      some ⟨c.blockHash header, height⟩
    else none
  blockDisconnected header height best :=
    if height ≠ 0 ∧ best.blockHash = c.blockHash header ∧ best.height = height then
      some ⟨header.prevBlockhash, height - 1⟩
    else none

/-- `Listen` for a `ChannelMonitor`, as far as its best block goes: it is not checked. -/
def channelMonitor (c : Consensus H Tx) : Listen (BestBlock H) H Tx where
  filteredBlockConnected header _ height _ := some ⟨c.blockHash header, height⟩
  blockDisconnected header height _ :=
    if height ≠ 0 then some ⟨header.prevBlockhash, height - 1⟩ else none

/-- `Listen` for `ChainMonitor`: every monitor is told. -/
def chainMonitor (c : Consensus H Tx) : Listen (List (BestBlock H)) H Tx where
  filteredBlockConnected header txdata height monitors :=
    monitors.mapM ((channelMonitor c).filteredBlockConnected header txdata height)
  blockDisconnected header height monitors :=
    monitors.mapM ((channelMonitor c).blockDisconnected header height)

/-- `chain_listener` of `main.rs`: the chain monitor, then the channel manager. -/
def chainListener [DecidableEq H] (c : Consensus H Tx) :
    Listen (List (BestBlock H) × BestBlock H) H Tx :=
  (chainMonitor c).pair (channelManager c)

/-- A listener of step 9 of `main.rs`: the channel manager or a monitor, as far as its best block
goes. -/
inductive StartupListener (H : Type) where
  | manager (best : BestBlock H)
  | monitor (best : BestBlock H)
deriving DecidableEq

/-- Its best block. -/
def StartupListener.best : StartupListener H → BestBlock H
  | .manager best => best
  | .monitor best => best

/-- `Listen` for either. -/
def startupListener [DecidableEq H] (c : Consensus H Tx) : Listen (StartupListener H) H Tx where
  filteredBlockConnected header txdata height
    | .manager best =>
      ((channelManager c).filteredBlockConnected header txdata height best).map .manager
    | .monitor best =>
      ((channelMonitor c).filteredBlockConnected header txdata height best).map .monitor
  blockDisconnected header height
    | .manager best => ((channelManager c).blockDisconnected header height best).map .manager
    | .monitor best => ((channelMonitor c).blockDisconnected header height best).map .monitor

/-! ## `ChainNotifier` -/

/-- `ChainDifference`. -/
structure ChainDifference (H : Type) where
  commonAncestor : ValidatedBlockHeader H
  disconnectedBlocks : List (ValidatedBlockHeader H)
  connectedBlocks : List (ValidatedBlockHeader H)

section
variable [DecidableEq H] (poller : ChainPoller σ H Tx) (cache : Cache κ H)

/-- `ChainNotifier::look_up_previous_header`: from the cache, else from the source. -/
def lookUpPreviousHeader (k : κ) (header : ValidatedBlockHeader H) :
    Request σ (ValidatedBlockHeader H) :=
  match cache.lookUp k header.header.prevBlockhash with
  | some previous => pure previous
  | none => poller.lookUpPreviousHeader header

/-- One of the two walks of `find_difference`, if it is its turn: the header is added to the blocks
passed and its parent looked up. -/
def walkBack (k : κ) (turn : Prop) [Decidable turn] (blocks : List (ValidatedBlockHeader H))
    (header : ValidatedBlockHeader H) :
    Request σ (List (ValidatedBlockHeader H) × ValidatedBlockHeader H) :=
  if turn then do
    let previous ← lookUpPreviousHeader poller cache k header
    return (blocks ++ [header], previous)
  else
    return (blocks, header)

/-- The loop of `find_difference`.  `none` says that `fuel` rounds were not enough. -/
def findDifferenceLoop (k : κ) : (fuel : Nat) →
    (disconnectedBlocks connectedBlocks : List (ValidatedBlockHeader H)) →
    (current previous : ValidatedBlockHeader H) → σ →
    Option (Except BlockSourceError (ChainDifference H) × σ)
  | 0, _, _, _, _, _ => none
  | fuel + 1, disconnectedBlocks, connectedBlocks, current, previous, s =>
    if current.blockHash = previous.blockHash then
      some (.ok ⟨current, disconnectedBlocks, connectedBlocks⟩, s)
    else
      match walkBack poller cache k (current.height ≤ previous.height) disconnectedBlocks previous
          s with
      | (.error e, s) => some (.error e, s)
      | (.ok (disconnectedBlocks, previous'), s) =>
        match walkBack poller cache k (previous.height ≤ current.height) connectedBlocks current
            s with
        | (.error e, s) => some (.error e, s)
        | (.ok (connectedBlocks, current'), s) =>
          findDifferenceLoop k fuel disconnectedBlocks connectedBlocks current' previous' s

/-- `find_difference`. -/
def findDifference (fuel : Nat) (k : κ) (current previous : ValidatedBlockHeader H) (s : σ) :
    Option (Except BlockSourceError (ChainDifference H) × σ) :=
  findDifferenceLoop poller cache k fuel [] [] current previous s

/-- `disconnect_blocks`, with the cache and the listener it works on. -/
def disconnectBlocks (listen : Listen L H Tx) : List (ValidatedBlockHeader H) → κ × L →
    Option (κ × L)
  | [], at_ => some at_
  | header :: blocks, (k, l) =>
    let (cached, k) := cache.blockDisconnected k header.blockHash
    -- `assert_eq!(cached_header, header)`
    if cached.all (· = header) then
      (listen.blockDisconnected header.header header.height l).bind fun l =>
        disconnectBlocks listen blocks (k, l)
    else none

/-- The loop of `connect_blocks`, over the blocks in the order they are connected. -/
def connectLoop (listen : Listen L H Tx) (newTip : ValidatedBlockHeader H) :
    List (ValidatedBlockHeader H) → κ × L → σ →
    Option (Except (BlockSourceError × Option (ValidatedBlockHeader H)) Unit × (κ × L) × σ)
  | [], at_, s => some (.ok (), at_, s)
  | header :: blocks, (k, l), s =>
    match poller.fetchBlock header s with
    | (.error e, s) => some (.error (e, some newTip), (k, l), s)
    | (.ok block, s) => do
      let k ← cache.blockConnected k header.blockHash header
      let l ← listen.blockConnected block header.height l
      connectLoop listen header blocks (k, l) s

/-- `connect_blocks`: the blocks are given in descending order. -/
def connectBlocks (listen : Listen L H Tx) (newTip : ValidatedBlockHeader H)
    (blocks : List (ValidatedBlockHeader H)) (at_ : κ × L) (s : σ) :
    Option (Except (BlockSourceError × Option (ValidatedBlockHeader H)) Unit × (κ × L) × σ) :=
  connectLoop poller cache listen newTip blocks.reverse at_ s

/-- `synchronize_listener`.  `none`: it panicked, or has not returned after `fuel` rounds. -/
def synchronizeListener (listen : Listen L H Tx) (fuel : Nat) (new old : ValidatedBlockHeader H)
    (at_ : κ × L) (s : σ) :
    Option (Except (BlockSourceError × Option (ValidatedBlockHeader H)) Unit × (κ × L) × σ) :=
  match findDifference poller cache fuel at_.1 new old s with
  | none => none
  | some (.error e, s) => some (.error (e, none), at_, s)
  | some (.ok difference, s) => do
    let at_ ← disconnectBlocks cache listen difference.disconnectedBlocks at_
    connectBlocks poller cache listen difference.commonAncestor difference.connectedBlocks at_ s

/-! ## `SpvClient` -/

/-- What an `SpvClient` keeps. -/
structure SpvClient (κ L H : Type) where
  chainTip : ValidatedBlockHeader H
  headerCache : κ
  chainListener : L

/-- `update_chain_tip`. -/
def SpvClient.updateChainTip (listen : Listen L H Tx) (fuel : Nat) (client : SpvClient κ L H)
    (best : ValidatedBlockHeader H) (s : σ) : Option (Bool × SpvClient κ L H × σ) := do
  let (result, (k, l), s) ← synchronizeListener poller cache listen fuel best client.chainTip
    (client.headerCache, client.chainListener) s
  match result with
  | .ok () => return (true, ⟨best, k, l⟩, s)
  | .error (_, some chainTip) =>
    if chainTip.blockHash ≠ client.chainTip.blockHash then return (true, ⟨chainTip, k, l⟩, s)
    else return (false, ⟨client.chainTip, k, l⟩, s)
  | .error (_, none) => return (false, ⟨client.chainTip, k, l⟩, s)

/-- `poll_best_tip`. -/
def SpvClient.pollBestTip (listen : Listen L H Tx) (fuel : Nat) (client : SpvClient κ L H)
    (s : σ) : Option (Except BlockSourceError (ChainTip H × Bool) × SpvClient κ L H × σ) :=
  match poller.pollChainTip client.chainTip s with
  | (.error e, s) => some (.error e, client, s)
  | (.ok (.better chainTip), s) => do
    let (blocksConnected, client, s) ←
      client.updateChainTip poller cache listen fuel chainTip s
    return (.ok (.better chainTip, blocksConnected), client, s)
  | (.ok chainTip, s) => some (.ok (chainTip, false), client, s)

end

/-! ## `synchronize_listeners` -/

section
variable [DecidableEq H] (poller : ChainPoller σ H Tx) (cache : Cache κ H)

/-- The header of the block a listener is at: from the cache, else from the source. -/
def headerAt (k : κ) (blockHash : H) : Request σ (ValidatedBlockHeader H) :=
  match cache.lookUp k blockHash with
  | some header => pure header
  | none => poller.header blockHash none

/-- The first loop of `synchronize_listeners`: the header of every listener's block. -/
def oldHeaders (k : κ) : List (H × L) → Request σ (List (ValidatedBlockHeader H × L))
  | [] => pure []
  | (oldBlockHash, listener) :: listeners => do
    let oldHeader ← headerAt poller cache k oldBlockHash
    let rest ← oldHeaders k listeners
    return (oldHeader, listener) :: rest

/-- What the second loop of `synchronize_listeners` has gathered. -/
structure Gathered (L H : Type) where
  chainListenersAtHeight : List (Nat × L)
  mostCommonAncestor : Option (ValidatedBlockHeader H)
  mostConnectedBlocks : List (ValidatedBlockHeader H)

/-- A listener that was taken down to the best chain is added, and its blocks if they are the
most. -/
def Gathered.add (g : Gathered L H) (difference : ChainDifference H) (listener : L) :
    Gathered L H :=
  let atHeight := g.chainListenersAtHeight ++ [(difference.commonAncestor.height, listener)]
  if g.mostConnectedBlocks.length < difference.connectedBlocks.length then
    ⟨atHeight, some difference.commonAncestor, difference.connectedBlocks⟩
  else { g with chainListenersAtHeight := atHeight }

/-- The second loop of `synchronize_listeners`: every listener is taken down to where its chain
meets the best one.  If the source fails, the listeners are where they are: those done and those
not reached. -/
def gather (listen : Listen L H Tx) (fuel : Nat) (k : κ) (best : ValidatedBlockHeader H) :
    List (ValidatedBlockHeader H × L) → Gathered L H → σ →
    Option (Except (BlockSourceError × List L) (Gathered L H) × σ)
  | [], g, s => some (.ok g, s)
  | (oldHeader, listener) :: listeners, g, s =>
    match findDifference poller (readOnlyCache cache) fuel k best oldHeader s with
    | none => none
    | some (.error e, s) =>
      some (.error (e, g.chainListenersAtHeight.map Prod.snd ++
        listener :: listeners.map Prod.snd), s)
    | some (.ok difference, s) => do
      let (_, listener) ← disconnectBlocks (readOnlyCache cache) listen
        difference.disconnectedBlocks (k, listener)
      gather listen fuel k best listeners (g.add difference listener) s

/-- `ChainListenerSet`: a block is for the listeners that are below it. -/
def chainListenerSet (listen : Listen L H Tx) : Listen (List (Nat × L)) H Tx where
  filteredBlockConnected header txdata height listeners :=
    listeners.mapM fun (startingHeight, listener) =>
      if startingHeight < height then
        (listen.filteredBlockConnected header txdata height listener).map (startingHeight, ·)
      else some (startingHeight, listener)
  blockDisconnected _ _ _ := none

/-- `synchronize_listeners`, with the cache and the listeners as it leaves them. -/
def synchronizeListeners (listen : Listen L H Tx) (fuel : Nat) (k : κ)
    (chainListeners : List (H × L)) (s : σ) :
    Option (Except BlockSourceError (ValidatedBlockHeader H) × (κ × List L) × σ) :=
  let untouched := chainListeners.map Prod.snd
  match poller.validateBestBlockHeader s with
  | (.error e, s) => some (.error e, (k, untouched), s)
  | (.ok bestHeader, s) =>
    match oldHeaders poller cache k chainListeners s with
    | (.error e, s) => some (.error e, (k, untouched), s)
    | (.ok listeners, s) => do
      match ← gather poller cache listen fuel k bestHeader listeners ⟨[], none, []⟩ s with
      | (.error (e, listeners), s) => return (.error e, (k, listeners), s)
      | (.ok g, s) =>
        match g.mostCommonAncestor with
        | none => return (.ok bestHeader, (k, g.chainListenersAtHeight.map Prod.snd), s)
        | some commonAncestor =>
          let (result, (k, listeners), s) ← connectBlocks poller cache (chainListenerSet listen)
            commonAncestor g.mostConnectedBlocks (k, g.chainListenersAtHeight) s
          match result with
          | .ok () => return (.ok bestHeader, (k, listeners.map Prod.snd), s)
          | .error (e, _) => return (.error e, (k, listeners.map Prod.snd), s)

end

end BlockSync
end HiddenLightning
