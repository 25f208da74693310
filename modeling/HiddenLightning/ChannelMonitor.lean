import HiddenLightning.LogReplay

/-! # Channel monitors and their updates

`ChannelMonitor` is the state LDK keeps for one channel: what it needs to
punish or claim on chain.  Off-chain progress reaches it as numbered
`ChannelMonitorUpdate`s through `updateMonitor`
(`ChannelMonitorImpl::update_monitor` of `channelmonitor.rs`), on-chain progress
through the block handlers.

The control flow of `update_monitor` is translated in full: the check of the
update's number, the loop over its steps, the flags the steps read and write,
and the two ways an error is returned.  The bookkeeping behind the steps —
commitment transactions, revocation secrets, preimages and on-chain claims — is
thousands of lines that only `update_monitor`'s callees look into; it is the
parameter `MonitorImpl`.  The broadcaster, the fee estimator and the logger that
the source passes along are part of it.

A new update's number is the monitor's plus one, computed in a `u64` with
overflow checks (the build profile of the readme's `cargo run`), so no update
follows the number `u64::MAX`, which is reserved for updates after a force-close
(`closedChannelUpdateId`).
-/
namespace HiddenLightning
open LogReplay

/-- A transaction id: 32 bytes. -/
structure Txid where
  bytes : List UInt8
  length_bytes : bytes.length = 32
deriving DecidableEq

/-- A transaction output, such as a channel's funding output. -/
structure OutPoint where
  txid : Txid
  index : UInt16
deriving DecidableEq

/-- The bookkeeping of a `ChannelMonitor` behind the steps of an update: its
state, the payloads of the steps, and what each step does to the state. -/
structure MonitorImpl where
  State : Type
  HolderTx : Type
  CounterpartyTx : Type
  Preimage : Type
  Secret : Type
  Script : Type
  provideLatestHolderCommitmentTx : HolderTx → State → State
  provideLatestCounterpartyCommitmentTx : CounterpartyTx → State → State
  providePaymentPreimage : Preimage → State → State
  /-- `none` when the secret does not match the earlier ones; nothing changes
  then. -/
  provideSecret : Secret → State → Option State
  broadcastLatestHolderCommitmentTxn : State → State

variable (M : MonitorImpl)

/-- The steps an update is made of (`ChannelMonitorUpdateStep`). -/
inductive UpdateStep where
  | latestHolderCommitmentTXInfo (tx : M.HolderTx)
  | latestCounterpartyCommitmentTXInfo (tx : M.CounterpartyTx)
  | paymentPreimage (preimage : M.Preimage)
  | commitmentSecret (secret : M.Secret)
  | channelForceClosed (shouldBroadcast : Bool)
  | shutdownScript (script : M.Script)

/-- A numbered list of steps. -/
structure ChannelMonitorUpdate where
  updates : List (UpdateStep M)
  updateId : UInt64

/-- The state of one channel's monitor. -/
structure ChannelMonitor where
  fundingTxo : OutPoint
  latestUpdateId : UInt64
  lockdownFromOffchain : Bool
  holderTxSigned : Bool
  fundingSpendSeen : Bool
  shutdownScript : Option M.Script
  state : M.State

/-- `CLOSED_CHANNEL_UPDATE_ID`: the number every update after a force-close
carries. -/
def closedChannelUpdateId : UInt64 := UInt64.ofNat (2 ^ 64 - 1)

variable {M}

/-- One step of an update: the body of `update_monitor`'s loop.  The flag is
`false` when the step sets `ret = Err(())`. -/
def applyStep (m : ChannelMonitor M) : UpdateStep M → Outcome (ChannelMonitor M)
  | .latestHolderCommitmentTXInfo tx =>
    if m.lockdownFromOffchain then .panicked
    else .returned (!m.holderTxSigned)
      { m with state := M.provideLatestHolderCommitmentTx tx m.state }
  | .latestCounterpartyCommitmentTXInfo tx =>
    .returned true { m with state := M.provideLatestCounterpartyCommitmentTx tx m.state }
  | .paymentPreimage preimage =>
    .returned true { m with state := M.providePaymentPreimage preimage m.state }
  | .commitmentSecret secret =>
    match M.provideSecret secret m.state with
    | none => .returned false m
    | some state => .returned true { m with state := state }
  | .channelForceClosed shouldBroadcast =>
    if shouldBroadcast then
      .returned true { m with
        lockdownFromOffchain := true
        holderTxSigned := true
        state := M.broadcastLatestHolderCommitmentTxn m.state }
    else .returned true { m with lockdownFromOffchain := true }
  | .shutdownScript script =>
    if m.shutdownScript.isSome then .panicked
    else .returned true { m with shutdownScript := some script }

/-- The loop over an update's steps: every step runs, an error is remembered. -/
def applySteps : List (UpdateStep M) → ChannelMonitor M → Outcome (ChannelMonitor M)
  | [], m => .returned true m
  | step :: steps, m =>
    match applyStep m step with
    | .panicked => .panicked
    | .returned ok m' =>
      match applySteps steps m' with
      | .panicked => .panicked
      | .returned ok' m'' => .returned (ok && ok') m''

/-- Whether the update passes the checks before the loop: a post-close update
provides exactly one preimage, any other one carries the next number. -/
def applicable (u : ChannelMonitorUpdate M) (m : ChannelMonitor M) : Bool :=
  if u.updateId = closedChannelUpdateId then
    match u.updates with
    | [.paymentPreimage _] => true
    | _ => false
  else m.latestUpdateId.toNat + 1 = u.updateId.toNat

/-- `ChannelMonitorImpl::update_monitor`. -/
def updateMonitor (u : ChannelMonitorUpdate M) (m : ChannelMonitor M) : Outcome (ChannelMonitor M) :=
  if applicable u m then
    match applySteps u.updates m with
    | .panicked => .panicked
    | .returned ok m' =>
      .returned (ok && !m'.fundingSpendSeen) { m' with latestUpdateId := u.updateId }
  else .panicked

/-! ## What an update can do -/

/-- What no step changes. -/
structure SameChannel (m m' : ChannelMonitor M) : Prop where
  fundingTxo : m'.fundingTxo = m.fundingTxo
  latestUpdateId : m'.latestUpdateId = m.latestUpdateId
  fundingSpendSeen : m'.fundingSpendSeen = m.fundingSpendSeen

theorem SameChannel.refl (m : ChannelMonitor M) : SameChannel m m := ⟨rfl, rfl, rfl⟩

theorem SameChannel.trans {m m' m'' : ChannelMonitor M} (h : SameChannel m m')
    (h' : SameChannel m' m'') : SameChannel m m'' :=
  ⟨h'.1.trans h.1, h'.2.trans h.2, h'.3.trans h.3⟩

theorem applyStep_sameChannel {m m' : ChannelMonitor M} {step : UpdateStep M} {ok : Bool}
    (h : applyStep m step = .returned ok m') : SameChannel m m' := by
  cases step with
  | latestHolderCommitmentTXInfo tx =>
    rw [applyStep] at h
    split at h
    · cases h
    · cases h; exact ⟨rfl, rfl, rfl⟩
  | latestCounterpartyCommitmentTXInfo tx => cases h; exact ⟨rfl, rfl, rfl⟩
  | paymentPreimage preimage => cases h; exact ⟨rfl, rfl, rfl⟩
  | commitmentSecret secret =>
    rw [applyStep] at h
    split at h
    · cases h; exact SameChannel.refl _
    · cases h; exact ⟨rfl, rfl, rfl⟩
  | channelForceClosed shouldBroadcast =>
    rw [applyStep] at h
    split at h
    · cases h; exact ⟨rfl, rfl, rfl⟩
    · cases h; exact ⟨rfl, rfl, rfl⟩
  | shutdownScript script =>
    rw [applyStep] at h
    split at h
    · cases h
    · cases h; exact ⟨rfl, rfl, rfl⟩

theorem applySteps_sameChannel {steps : List (UpdateStep M)} {m m' : ChannelMonitor M} {ok : Bool}
    (h : applySteps steps m = .returned ok m') : SameChannel m m' := by
  induction steps generalizing m ok with
  | nil => cases h; exact SameChannel.refl _
  | cons step steps ih =>
    rw [applySteps] at h
    split at h
    · cases h
    · rename_i ok₁ m₁ h₁
      split at h
      · cases h
      · rename_i ok₂ m₂ h₂
        cases h
        exact (applyStep_sameChannel h₁).trans (ih h₂)

/-- **Everything a returning update can have been.**  A post-close update set one
preimage; any other one carried the next number.  Either way the number is now
the update's, the funding output and the spend flag are as before, and `Ok` was
returned only if the funding output is unspent. -/
theorem updateMonitor_returned {u : ChannelMonitorUpdate M} {m m' : ChannelMonitor M} {ok : Bool}
    (h : updateMonitor u m = .returned ok m') :
    (m'.latestUpdateId = u.updateId ∧ m'.fundingTxo = m.fundingTxo ∧
      m'.fundingSpendSeen = m.fundingSpendSeen ∧ (ok = true → m.fundingSpendSeen = false)) ∧
    ((u.updateId = closedChannelUpdateId ∧ ok = !m.fundingSpendSeen ∧
        ∃ p, u.updates = [.paymentPreimage p] ∧ m' = { m with
          latestUpdateId := closedChannelUpdateId
          state := M.providePaymentPreimage p m.state }) ∨
      (u.updateId ≠ closedChannelUpdateId ∧
        m.latestUpdateId.toNat + 1 = u.updateId.toNat)) := by
  rw [updateMonitor] at h
  split at h
  · rename_i happ
    split at h
    · cases h
    · rename_i ok₁ m₁ h₁
      cases h
      have hsame := applySteps_sameChannel h₁
      refine ⟨⟨rfl, hsame.fundingTxo, hsame.fundingSpendSeen, ?_⟩, ?_⟩
      · intro hok
        rw [← hsame.fundingSpendSeen]
        simpa using (Bool.and_eq_true_iff.mp hok).2
      · rw [applicable] at happ
        split at happ
        · rename_i hclosed
          split at happ
          · rename_i p hp
            rw [hp] at h₁
            cases h₁
            exact Or.inl ⟨hclosed, rfl, p, hp, by rw [hclosed]⟩
          · cases happ
        · exact Or.inr ⟨‹_›, of_decide_eq_true happ⟩
  · cases h

/-- An update that is neither the next one nor a post-close one aborts the
process. -/
theorem updateMonitor_panicked {u : ChannelMonitorUpdate M} {m : ChannelMonitor M}
    (hu : u.updateId ≠ closedChannelUpdateId)
    (hid : m.latestUpdateId.toNat + 1 ≠ u.updateId.toNat) : updateMonitor u m = .panicked := by
  rw [updateMonitor, if_neg]
  rw [applicable, if_neg hu]
  simpa using hid

/-! ## The smallest bookkeeping -/

/-- Bookkeeping that keeps the preimages it is given, newest first, and nothing
else: enough to run the development on concrete channels. -/
def preimageKeeper : MonitorImpl where
  State := List Nat
  HolderTx := Unit
  CounterpartyTx := Unit
  Preimage := Nat
  Secret := Unit
  Script := Unit
  provideLatestHolderCommitmentTx _ preimages := preimages
  provideLatestCounterpartyCommitmentTx _ preimages := preimages
  providePaymentPreimage preimage preimages := preimage :: preimages
  provideSecret _ preimages := some preimages
  broadcastLatestHolderCommitmentTxn preimages := preimages

/-- The txid of 32 equal bytes. -/
def Txid.ofByte (b : UInt8) : Txid := ⟨List.replicate 32 b, List.length_replicate⟩

/-- The monitor of a channel just opened. -/
def openedMonitor (fundingTxo : OutPoint) : ChannelMonitor preimageKeeper where
  fundingTxo := fundingTxo
  latestUpdateId := 0
  lockdownFromOffchain := false
  holderTxSigned := false
  fundingSpendSeen := false
  shutdownScript := none
  state := []

/-- An update that provides one preimage. -/
def preimageUpdate (updateId : UInt64) (preimage : Nat) : ChannelMonitorUpdate preimageKeeper :=
  ⟨[.paymentPreimage preimage], updateId⟩

theorem preimageUpdate_inj {i j : UInt64} {p q : Nat} (h : preimageUpdate i p = preimageUpdate j q) :
    i = j ∧ p = q := by
  injection h with hsteps hid
  injection hsteps with hstep
  injection hstep with hp
  exact ⟨hid, hp⟩

theorem updateMonitor_preimageUpdate (updateId : UInt64) (preimage : Nat)
    {m : ChannelMonitor preimageKeeper}
    (h : updateId = closedChannelUpdateId ∨ m.latestUpdateId.toNat + 1 = updateId.toNat) :
    updateMonitor (preimageUpdate updateId preimage) m = .returned (!m.fundingSpendSeen)
      { m with latestUpdateId := updateId, state := preimage :: m.state } := by
  rw [updateMonitor, if_pos]
  · rfl
  · rw [applicable]
    split
    · rfl
    · rcases h with h | h
      · contradiction
      · exact decide_eq_true h

end HiddenLightning
