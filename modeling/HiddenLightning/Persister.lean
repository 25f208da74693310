import HiddenLightning.Directory
import HiddenLightning.FileNames

/-! # The persister

`YourPersister` (`disk.rs`) keeps channel monitors in two directories:
`monitors/`, with one full monitor a channel, and `updates/`, shared by all
channels, with one file for each update since.  Writing an update adds a file to
`updates/`; writing a full monitor, for whatever channel, empties `updates/`.
`persistNewChannel` and `updatePersistedChannel` are the two calls as the
filesystem steps they make.  The in-memory `chan_update_cache` is left out:
nothing is ever put into it.

`Store` is what the two directories mean: a snapshot a channel and a set of
numbered updates a channel.  `Stores` says that a disk holds a store, leftovers
under temporary names apart, and `Stores.call` that every complete call has on
the disk the effect it has on the store.
-/
namespace HiddenLightning
open Numerals FileStore

/-! ## The calls -/

/-- The serialisation of a type: the successive writes of an object, and a reader
that undoes them. -/
structure Codec (α : Type) where
  write : α → List (List UInt8)
  read : List UInt8 → Option α
  read_write : ∀ a, read (write a).flatten = some a

/-- The serialisations of monitors and of updates. -/
structure Serial (M : MonitorImpl) where
  monitor : Codec (ChannelMonitor M)
  update : Codec (ChannelMonitorUpdate M)

/-- A serialisation of any encodable type: as many zeros as its code. -/
def Codec.unary (α : Type) [Encodable α] : Codec α where
  write a := [List.replicate (Encodable.encode a) 0]
  read bytes := Encodable.decode bytes.length
  read_write a := by simp

/-- `path_to_monitor_data` and `path_to_monitor_data_updates`. -/
inductive StorePath where
  | monitors
  | updates
deriving DecidableEq

/-- The persister's two directories. -/
abbrev PersistDisk := Disk StorePath Text UInt8

/-- A filesystem step of the persister. -/
abbrev PersistStep := Op StorePath Text UInt8

/-- `write_to_file`: the content goes to a temporary file, which is synced and
renamed. -/
def writeToFile {α : Type} (path : StorePath) (filename : Text) (c : Codec α) (data : α) :
    List PersistStep :=
  replaceFile path (tmpFilename filename) filename (c.write data)

variable {M : MonitorImpl} (S : Serial M)

/-- `persist_new_channel`.  `order` is the order in which `remove_dir_all` meets
the files of `updates/`. -/
def persistNewChannel (order : List Text) (fundingTxo : OutPoint) (monitor : ChannelMonitor M) :
    List PersistStep :=
  writeToFile .monitors (monitorFilename fundingTxo) S.monitor monitor ++ emptyDir .updates order

/-- `update_persisted_channel`. -/
def updatePersistedChannel (order : List Text) (id : OutPoint)
    (update : Option (ChannelMonitorUpdate M)) (data : ChannelMonitor M) : List PersistStep :=
  match update with
  | some u => .createDirAll .updates ::
      writeToFile .updates (updateFilename id u.updateId) S.update u
  | none =>
    writeToFile .monitors (monitorFilename id) S.monitor data ++ emptyDir .updates order

/-- A call of the persister. -/
inductive PersistCall (M : MonitorImpl) where
  | persistNewChannel (fundingTxo : OutPoint) (monitor : ChannelMonitor M)
  | updatePersistedChannel (id : OutPoint) (update : Option (ChannelMonitorUpdate M))
      (data : ChannelMonitor M)

namespace PersistCall

/-- The filesystem steps of a call. -/
def steps (order : List Text) : PersistCall M → List PersistStep
  | .persistNewChannel fundingTxo monitor =>
    HiddenLightning.persistNewChannel S order fundingTxo monitor
  | .updatePersistedChannel id update data =>
    HiddenLightning.updatePersistedChannel S order id update data

/-- The callers hand over a monitor under its own funding output. -/
def Own : PersistCall M → Prop
  | .persistNewChannel fundingTxo monitor => monitor.fundingTxo = fundingTxo
  | .updatePersistedChannel id _ data => data.fundingTxo = id

/-- A complete call. -/
def Completes (c : PersistCall M) (d d' : PersistDisk) : Prop :=
  ∃ order, run (c.steps S order) d = some d'

end PersistCall

/-! ## What the directories mean -/

/-- A snapshot of each channel, and the updates stored since. -/
structure Store (M : MonitorImpl) where
  snap : OutPoint → Option (ChannelMonitor M)
  upd : OutPoint → UInt64 → Option (ChannelMonitorUpdate M)
  snap_fundingTxo : ∀ {o m}, snap o = some m → m.fundingTxo = o
  upd_updateId : ∀ {o i u}, upd o i = some u → u.updateId = i

namespace Store

/-- Nothing stored. -/
def empty : Store M := ⟨fun _ => none, fun _ _ => none, by simp, by simp⟩

/-- A full monitor replaces the channel's snapshot and drops every update of
every channel. -/
def save (s : Store M) (m : ChannelMonitor M) : Store M where
  snap o := if o = m.fundingTxo then some m else s.snap o
  upd _ _ := none
  snap_fundingTxo := by
    intro o m' h
    split at h
    · cases h; exact Eq.symm ‹_›
    · exact s.snap_fundingTxo h
  upd_updateId := by simp

/-- An update is added under its number, in place of an earlier one of the same
number. -/
def log (s : Store M) (id : OutPoint) (u : ChannelMonitorUpdate M) : Store M where
  snap := s.snap
  upd o i := if o = id ∧ i = u.updateId then some u else s.upd o i
  snap_fundingTxo := s.snap_fundingTxo
  upd_updateId := by
    intro o i u' h
    split at h
    · cases h; exact Eq.symm (And.right ‹_›)
    · exact s.upd_updateId h

theorem log_upd (s : Store M) (id : OutPoint) (u : ChannelMonitorUpdate M) (o : OutPoint)
    (i : UInt64) : (s.log id u).upd o i =
      if o = id ∧ i = u.updateId then some u else s.upd o i := rfl

theorem save_snap (s : Store M) (m : ChannelMonitor M) (o : OutPoint) :
    (s.save m).snap o = if o = m.fundingTxo then some m else s.snap o := rfl

/-- The effect of a call. -/
def call (s : Store M) : PersistCall M → Store M
  | .persistNewChannel _ monitor => s.save monitor
  | .updatePersistedChannel id (some u) _ => s.log id u
  | .updatePersistedChannel _ none data => s.save data

end Store

/-- **The disk holds the store**: each file is the serialisation of what its name
says, and every other file is one the readers skip. -/
structure Stores (d : PersistDisk) (s : Store M) : Prop where
  monitors : ∀ o, look d .monitors (monitorFilename o) =
    (s.snap o).map fun m => (S.monitor.write m).flatten
  updates : ∀ o i, look d .updates (updateFilename o i) =
    (s.upd o i).map fun u => (S.update.write u).flatten
  monitors_name : ∀ n, (look d .monitors n).isSome → Skipped n ∨ ∃ o, n = monitorFilename o
  updates_name : ∀ n, (look d .updates n).isSome → Skipped n ∨ ∃ o i, n = updateFilename o i

theorem stores_empty : Stores S (fun _ => none) Store.empty := by
  constructor <;> simp [look, Store.empty]

/-- What a reader sees after `write_to_file`, at any name but the temporary one. -/
theorem look_writeToFile {α : Type} {path : StorePath} {filename : Text}
    (hf : Wellformed filename) {c : Codec α} {data : α} {d d' : PersistDisk}
    (h : run (writeToFile path filename c data) d = some d') (q : StorePath) (n : Text) :
    look d' q n = if q = path ∧ n = filename then some (c.write data).flatten
      else if q = path ∧ n = tmpFilename filename then none else look d q n :=
  look_replaceFile hf.ne_tmpFilename h q n

section
variable {α : Type} {path : StorePath} {filename : Text} (hf : Wellformed filename) {c : Codec α}
variable {data : α} {d d' : PersistDisk} (h : run (writeToFile path filename c data) d = some d')
include hf h

theorem look_written : look d' path filename = some (c.write data).flatten := by
  rw [look_writeToFile hf h, if_pos ⟨rfl, rfl⟩]

/-- No other name that is read is touched, -/
theorem look_written_of_ne {n : Text} (hn : ¬ Skipped n) (hne : n ≠ filename) :
    look d' path n = look d path n := by
  have htmp : n ≠ tmpFilename filename := by
    rintro rfl
    exact hn hf.skipped_tmpFilename
  rw [look_writeToFile hf h, if_neg fun hc => hne hc.2, if_neg fun hc => htmp hc.2]

/-- nor any in the other directory, -/
theorem look_written_elsewhere {q : StorePath} (hq : q ≠ path) (n : Text) :
    look d' q n = look d q n := by
  rw [look_writeToFile hf h, if_neg fun hc => hq hc.1, if_neg fun hc => hq hc.1]

/-- and no other name is new. -/
theorem isSome_of_look_written {n : Text} (hn : (look d' path n).isSome) :
    n = filename ∨ (look d path n).isSome := by
  rw [look_writeToFile hf h] at hn
  split at hn
  · rename_i hname
    exact Or.inl hname.2
  · split at hn
    · cases hn
    · exact Or.inr hn

end

/-- **`write_to_file` cut short**: up to the rename a reader sees nothing of it, from there on
all of it. -/
theorem run_take_writeToFile {α : Type} {path : StorePath} {filename : Text}
    (hf : Wellformed filename) {c : Codec α} {data : α} {d dk : PersistDisk} {k : Nat}
    (h : run ((writeToFile path filename c data).take k) d = some dk) :
    (.rename path (tmpFilename filename) filename ∉ (writeToFile path filename c data).take k ∧
        ∀ q n, ¬ Skipped n → look dk q n = look d q n) ∨
      (.rename path (tmpFilename filename) filename ∈ (writeToFile path filename c data).take k ∧
        run (writeToFile path filename c data) d = some dk) := by
  refine (run_take_replaceFile hf.ne_tmpFilename h).imp_left fun ⟨hnot, hlook⟩ => ⟨hnot, ?_⟩
  intro q n hn
  refine hlook q n fun hc => hn ?_
  rw [hc.2]
  exact hf.skipped_tmpFilename

variable {S}

namespace Stores

/-- Only the readable names and their contents matter. -/
theorem of_look {d d' : PersistDisk} {s : Store M} (hs : Stores S d s)
    (hlook : ∀ q n, ¬ Skipped n → look d' q n = look d q n) : Stores S d' s where
  monitors o := by
    rw [hlook _ _ (wellformed_monitorFilename o).not_skipped, hs.monitors]
  updates o i := by
    rw [hlook _ _ (wellformed_updateFilename o i).not_skipped, hs.updates]
  monitors_name n hn := by
    by_cases hskip : Skipped n
    · exact Or.inl hskip
    · rw [hlook _ _ hskip] at hn
      exact hs.monitors_name n hn
  updates_name n hn := by
    by_cases hskip : Skipped n
    · exact Or.inl hskip
    · rw [hlook _ _ hskip] at hn
      exact hs.updates_name n hn

/-- A complete full write. -/
theorem save {d d' : PersistDisk} {s : Store M} (hs : Stores S d s) {m : ChannelMonitor M}
    {order : List Text}
    (h : run (writeToFile .monitors (monitorFilename m.fundingTxo) S.monitor m ++
      emptyDir .updates order) d = some d') : Stores S d' (s.save m) := by
  rw [run_append] at h
  obtain ⟨d₁, h₁, h₂⟩ := Option.bind_eq_some_iff.mp h
  have hwf := wellformed_monitorFilename m.fundingTxo
  have hmon : ∀ n, look d' .monitors n = look d₁ .monitors n := fun n => by
    rw [look_emptyDir h₂, if_neg (by decide)]
  have hupd : ∀ n, look d' .updates n = none := fun n => by
    rw [look_emptyDir h₂, if_pos rfl]
  constructor
  · intro o
    rw [hmon]
    by_cases ho : o = m.fundingTxo
    · rw [ho, look_written hwf h₁]
      simp [Store.save]
    · rw [look_written_of_ne hwf h₁ (wellformed_monitorFilename o).not_skipped
        fun he => ho (monitorFilename_injective he), hs.monitors]
      simp [Store.save, ho]
  · intro o i
    rw [hupd]
    rfl
  · intro n hn
    rw [hmon] at hn
    rcases isSome_of_look_written hwf h₁ hn with rfl | hn
    · exact Or.inr ⟨m.fundingTxo, rfl⟩
    · exact hs.monitors_name n hn
  · intro n hn
    rw [hupd] at hn
    cases hn

/-- A complete write of an update. -/
theorem log {d d' : PersistDisk} {s : Store M} (hs : Stores S d s) {id : OutPoint}
    {u : ChannelMonitorUpdate M}
    (h : run (writeToFile .updates (updateFilename id u.updateId) S.update u) d = some d') :
    Stores S d' (s.log id u) := by
  have hwf := wellformed_updateFilename id u.updateId
  have hmon : ∀ n, look d' .monitors n = look d .monitors n :=
    look_written_elsewhere hwf h (by decide)
  constructor
  · intro o
    rw [hmon, hs.monitors]
    rfl
  · intro o i
    by_cases ho : o = id ∧ i = u.updateId
    · rw [ho.1, ho.2, look_written hwf h]
      simp [Store.log]
    · rw [look_written_of_ne hwf h (wellformed_updateFilename o i).not_skipped
        fun he => ho (updateFilename_inj he), hs.updates]
      simp [Store.log, ho]
  · intro n hn
    rw [hmon] at hn
    exact hs.monitors_name n hn
  · intro n hn
    rcases isSome_of_look_written hwf h hn with rfl | hn
    · exact Or.inr ⟨id, u.updateId, rfl⟩
    · exact hs.updates_name n hn

/-- A complete call with an update.  The monitor handed over goes unused. -/
theorem call_update {d d' : PersistDisk} {s : Store M} (hs : Stores S d s) {id : OutPoint}
    {u : ChannelMonitorUpdate M} {data : ChannelMonitor M}
    (h : (PersistCall.updatePersistedChannel id (some u) data).Completes S d d') :
    Stores S d' (s.log id u) := by
  obtain ⟨order, h⟩ := h
  obtain ⟨d₁, h₁, h⟩ := Option.bind_eq_some_iff.mp h
  exact (hs.of_look fun q n _ => look_exec h₁ (fun ht => ht.elim)).log h

/-- **A complete call has on the disk the effect it has on the store.** -/
theorem call {d d' : PersistDisk} {s : Store M} (hs : Stores S d s) {c : PersistCall M}
    (hown : c.Own) (h : c.Completes S d d') : Stores S d' (s.call c) := by
  match c, hown, h with
  | .persistNewChannel _ monitor, rfl, ⟨_, h⟩ => exact hs.save h
  | .updatePersistedChannel id (some u) data, _, h => exact hs.call_update h
  | .updatePersistedChannel _ none data, rfl, ⟨_, h⟩ => exact hs.save h

end Stores

/-- **Every call can complete.** -/
theorem exists_completes (c : PersistCall M) (d : PersistDisk) : ∃ d', c.Completes S d d' := by
  have hsave : ∀ (o : OutPoint) (m : ChannelMonitor M), ∃ d' order,
      run (writeToFile .monitors (monitorFilename o) S.monitor m ++ emptyDir .updates order) d =
        some d' := by
    intro o m
    obtain ⟨d₁, h₁, -⟩ := run_replaceFile StorePath.monitors
      (wellformed_monitorFilename o).ne_tmpFilename (S.monitor.write m) d
    obtain ⟨d₂, h₂⟩ := run_emptyDir (List.Perm.refl (names d₁ .updates))
    exact ⟨d₂, _, by rw [run_append, writeToFile, h₁]; exact h₂⟩
  match c with
  | .persistNewChannel fundingTxo monitor =>
    obtain ⟨d', order, h⟩ := hsave fundingTxo monitor
    exact ⟨d', order, h⟩
  | .updatePersistedChannel id (some u) data =>
    obtain ⟨d', h, -⟩ := run_replaceFile StorePath.updates
      (wellformed_updateFilename id u.updateId).ne_tmpFilename (S.update.write u)
      (if (d .updates).isSome then d else setDir d .updates ∅)
    exact ⟨d', [], h⟩
  | .updatePersistedChannel id none data =>
    obtain ⟨d', order, h⟩ := hsave id data
    exact ⟨d', order, h⟩

/-! ## Serialising the smallest bookkeeping -/

instance : Encodable Txid :=
  Encodable.ofLeftInjection (fun txid => txid.bytes.map UInt8.toNat)
    (fun ns => if h : (ns.map UInt8.ofNat).length = 32 then some ⟨ns.map UInt8.ofNat, h⟩ else none)
    (fun txid => by
      obtain ⟨bytes, h⟩ := txid
      simp [List.map_map, Function.comp_def, h])

instance : Encodable OutPoint :=
  Encodable.ofLeftInverse (fun o => (o.txid, o.index.toNat)) (fun x => ⟨x.1, UInt16.ofNat x.2⟩)
    (fun o => by simp)

/-- The kind of a step and its payload. -/
def UpdateStep.code : UpdateStep preimageKeeper → Nat × Nat
  | .latestHolderCommitmentTXInfo _ => (0, 0)
  | .latestCounterpartyCommitmentTXInfo _ => (1, 0)
  | .paymentPreimage preimage => (2, preimage)
  | .commitmentSecret _ => (3, 0)
  | .channelForceClosed shouldBroadcast => (4, shouldBroadcast.toNat)
  | .shutdownScript _ => (5, 0)

/-- The step of a code. -/
def UpdateStep.ofCode : Nat × Nat → UpdateStep preimageKeeper
  | (0, _) => .latestHolderCommitmentTXInfo ()
  | (1, _) => .latestCounterpartyCommitmentTXInfo ()
  | (2, preimage) => .paymentPreimage preimage
  | (3, _) => .commitmentSecret ()
  | (4, shouldBroadcast) => .channelForceClosed (shouldBroadcast == 1)
  | _ => .shutdownScript ()

theorem UpdateStep.ofCode_code (step : UpdateStep preimageKeeper) : ofCode step.code = step := by
  cases step with
  | channelForceClosed shouldBroadcast => cases shouldBroadcast <;> rfl
  | _ => rfl

instance : Encodable (UpdateStep preimageKeeper) :=
  Encodable.ofLeftInverse UpdateStep.code UpdateStep.ofCode UpdateStep.ofCode_code

instance : Encodable (ChannelMonitorUpdate preimageKeeper) :=
  Encodable.ofLeftInverse (fun u => (u.updates, u.updateId.toNat))
    (fun x => ⟨x.1, UInt64.ofNat x.2⟩) (fun u => by simp)

/-- The fields of a monitor. -/
abbrev MonitorFields := OutPoint × Nat × Bool × Bool × Bool × Option Unit × List Nat

instance : Encodable (ChannelMonitor preimageKeeper) :=
  Encodable.ofLeftInverse
    (fun m : ChannelMonitor preimageKeeper => ((m.fundingTxo, m.latestUpdateId.toNat,
      m.lockdownFromOffchain, m.holderTxSigned, m.fundingSpendSeen, m.shutdownScript, m.state) :
        MonitorFields))
    (fun ⟨fundingTxo, latestUpdateId, lockdown, signed, spent, script, state⟩ =>
      ⟨fundingTxo, UInt64.ofNat latestUpdateId, lockdown, signed, spent, script, state⟩)
    (fun m => by simp)

/-- The serialisations of the smallest bookkeeping. -/
def preimageSerial : Serial preimageKeeper := ⟨Codec.unary _, Codec.unary _⟩

end HiddenLightning
