import HiddenLightning.Recovery

/-! # The files of `updates/`

An update's file is named by its channel's outpoint and its number, and written by
renaming a temporary file over whatever had the name.  So a channel's updates stay
apart as long as their numbers do (`logged_updates_returned_iff`); the updates LDK
sends after a force-close all have the same number, and each replaces the one
before.

The reader keeps the outpoint's txid and drops its index, and the replay loop looks
a channel's updates up by txid.  So a channel is given its own updates and no others
as long as no other output of its funding transaction has any stored, and all of them as
long as none is refused: a refused update ends startup (`replay_calls_own_iff`).

The reader splits a name at every `_` and takes the second part unchecked.  It is always there:
a name that has none of them is too long for a txid (`update_names_read`).
-/
namespace HiddenLightning
open Numerals FileStore LogReplay

/-! ## Writing several updates -/

variable {M : MonitorImpl} (S : Serial M)

/-- Complete calls of `update_persisted_channel` with an update, for any channels,
one after the other. -/
inductive Logged : List (OutPoint × ChannelMonitorUpdate M) → PersistDisk → PersistDisk → Prop
  | nil (d : PersistDisk) : Logged [] d d
  | snoc {es : List (OutPoint × ChannelMonitorUpdate M)} {d d' d'' : PersistDisk} {id : OutPoint}
      {u : ChannelMonitorUpdate M} {data : ChannelMonitor M} (h : Logged es d d')
      (hc : (PersistCall.updatePersistedChannel id (some u) data).Completes S d' d'') :
      Logged (es ++ [(id, u)]) d d''

/-- The store after several updates. -/
def Store.logAll (s : Store M) (es : List (OutPoint × ChannelMonitorUpdate M)) : Store M :=
  es.foldl (fun s e => s.log e.1 e.2) s

theorem Store.logAll_snoc (s : Store M) (es : List (OutPoint × ChannelMonitorUpdate M))
    (e : OutPoint × ChannelMonitorUpdate M) :
    s.logAll (es ++ [e]) = (s.logAll es).log e.1 e.2 := List.foldl_concat ..

/-- **An update stays as long as no other one of its number follows.** -/
theorem Store.logAll_upd (s : Store M) {es : List (OutPoint × ChannelMonitorUpdate M)}
    {id : OutPoint} {u : ChannelMonitorUpdate M} (hu : (id, u) ∈ es)
    (halone : ∀ v, (id, v) ∈ es → v.updateId = u.updateId → v = u) :
    (s.logAll es).upd id u.updateId = some u := by
  induction es using List.reverseRecOn with
  | nil => cases hu
  | append_singleton es e ih =>
    rw [Store.logAll_snoc, Store.log_upd]
    by_cases he : id = e.1 ∧ u.updateId = e.2.updateId
    · -- the last call has this name, so it wrote `u` itself
      have heu : e.2 = u := by
        refine halone e.2 ?_ he.2.symm
        rw [he.1]
        exact List.mem_append_right _ List.mem_cons_self
      rw [if_pos he, heu]
    · rw [if_neg he]
      refine ih ?_ fun v hv => halone v (List.mem_append_left _ hv)
      rcases List.mem_append.mp hu with hu | hu
      · exact hu
      · rw [List.mem_singleton] at hu
        exact absurd ⟨congrArg Prod.fst hu, congrArg (fun e => e.2.updateId) hu⟩ he

variable {S}

theorem Logged.stores {es : List (OutPoint × ChannelMonitorUpdate M)} {d d' : PersistDisk}
    (h : Logged S es d d') {s : Store M} (hs : Stores S d s) : Stores S d' (s.logAll es) := by
  induction h with
  | nil => exact hs
  | snoc _ hc ih =>
    rw [Store.logAll_snoc]
    exact (ih hs).call_update hc

variable (S)

/-- `read_channelmonitor_updates` returns the update under the channel's txid,
having read it from one of the channel's files. -/
def Returned (o : OutPoint) (updates : Option (List DirEntry)) (u : ChannelMonitorUpdate M) : Prop :=
  u ∈ storedUpdates S o updates ∧ ∃ map us, readChannelmonitorUpdates S updates = .ok map ∧
    map o.txid = some us ∧ u ∈ us

variable {S}

/-- What is returned under a txid: the stored updates of all its outputs. -/
theorem mem_readChannelmonitorUpdates {d : PersistDisk} {s : Store M} (hs : Stores S d s)
    {lu : Option (List DirEntry)} (hl : Listing (d .updates) lu) {map : UpdateMap M}
    (hmap : readChannelmonitorUpdates S lu = .ok map) (txid : Txid) (u : ChannelMonitorUpdate M) :
    (∃ us, map txid = some us ∧ u ∈ us) ↔ ∃ o, o.txid = txid ∧ s.upd o u.updateId = some u := by
  obtain ⟨es, hread, hes⟩ := readDir_updates_stores hs hl
  rw [readChannelmonitorUpdates_of_readDir hread] at hmap
  cases hmap
  rw [foldl_pushUpdate]
  constructor
  · rintro ⟨us, hus, hu⟩
    split at hus
    · cases hus
      simp only [Option.getD_none, List.nil_append, List.mem_map, List.mem_filter] at hu
      obtain ⟨e, ⟨he, htxid⟩, rfl⟩ := hu
      exact ⟨e.1, of_decide_eq_true htxid, (hes.mem_iff e.1 e.2).mp he⟩
    · cases hus
  · rintro ⟨o, htxid, hu⟩
    have hmem : (o, u) ∈ es := (hes.mem_iff o u).mpr hu
    refine ⟨_, if_pos (List.any_eq_true.mpr ⟨_, hmem, decide_eq_true htxid⟩), ?_⟩
    refine List.mem_append_right _ (List.mem_map.mpr ⟨(o, u), ?_, rfl⟩)
    exact List.mem_filter.mpr ⟨hmem, decide_eq_true htxid⟩

theorem returned_iff {d : PersistDisk} {s : Store M} (hs : Stores S d s) {o : OutPoint}
    {lu : Option (List DirEntry)} (hl : Listing (d .updates) lu) {u : ChannelMonitorUpdate M} :
    Returned S o lu u ↔ s.upd o u.updateId = some u := by
  rw [Returned, mem_storedUpdates hs hl]
  refine ⟨And.left, fun hu => ⟨hu, ?_⟩⟩
  obtain ⟨es, hread, -⟩ := readDir_updates_stores hs hl
  have hmap := readChannelmonitorUpdates_of_readDir hread
  obtain ⟨us, hus, hmem⟩ := (mem_readChannelmonitorUpdates hs hl hmap o.txid u).mpr ⟨o, rfl, hu⟩
  exact ⟨_, us, hmap, hus, hmem⟩

/-- **The acknowledged updates of a channel are all returned exactly when their
numbers are different**, whatever was stored before and whatever updates of other
channels were written in between. -/
theorem logged_updates_returned_iff {d d' : PersistDisk} (hd : Reachable S d)
    {es : List (OutPoint × ChannelMonitorUpdate M)} (hlog : Logged S es d d') {id : OutPoint}
    (hdistinct : ((es.filter fun e => e.1 = id).map Prod.snd).Nodup)
    {lu : Option (List DirEntry)} (hl : Listing (d' .updates) lu) :
    (∀ u, (id, u) ∈ es → Returned S id lu u) ↔
      ((es.filter fun e => e.1 = id).map fun e => e.2.updateId).Nodup := by
  obtain ⟨s, hs⟩ := hd.stores
  have hs' := hlog.stores hs
  have hmem : ∀ u, u ∈ (es.filter fun e => e.1 = id).map Prod.snd ↔ (id, u) ∈ es := by simp
  have hmap : (es.filter fun e => e.1 = id).map (fun e => e.2.updateId) =
      ((es.filter fun e => e.1 = id).map Prod.snd).map ChannelMonitorUpdate.updateId := by
    rw [List.map_map]
    rfl
  rw [hmap]
  constructor
  · intro hret
    refine List.Nodup.map_on (fun u hu v hv huv => ?_) hdistinct
    have hu := (returned_iff hs' hl).mp (hret u ((hmem u).mp hu))
    have hv := (returned_iff hs' hl).mp (hret v ((hmem v).mp hv))
    rw [huv, hv] at hu
    exact (Option.some.inj hu).symm
  · intro hids u hu
    refine (returned_iff hs' hl).mpr (s.logAll_upd hu fun v hv huv => ?_)
    exact List.inj_on_of_nodup_map hids ((hmem v).mpr hv) ((hmem u).mpr hu) huv

/-- Two updates of one channel, written to an empty disk. -/
theorem exists_logged_two (o : OutPoint) (u v : ChannelMonitorUpdate preimageKeeper) :
    ∃ d, Logged preimageSerial [(o, u), (o, v)] (fun _ => none) d := by
  obtain ⟨d₁, h₁⟩ := exists_completes (S := preimageSerial)
    (.updatePersistedChannel o (some u) (openedMonitor o)) fun _ => none
  obtain ⟨d₂, h₂⟩ := exists_completes (S := preimageSerial)
    (.updatePersistedChannel o (some v) (openedMonitor o)) d₁
  exact ⟨d₂, ((Logged.nil _).snoc h₁).snoc h₂⟩

/-- Updates 1 and 2 of a channel are both returned. -/
theorem logged_updates_one_two_returned : ∃ (d : PersistDisk) (lu : Option (List DirEntry)),
    Listing (d .updates) lu ∧
      ∀ u, (⟨.ofByte 1, 0⟩, u) ∈ [((⟨.ofByte 1, 0⟩ : OutPoint), preimageUpdate 1 7),
        (⟨.ofByte 1, 0⟩, preimageUpdate 2 8)] → Returned preimageSerial ⟨.ofByte 1, 0⟩ lu u := by
  generalize (⟨.ofByte 1, 0⟩ : OutPoint) = o
  obtain ⟨d, hlog⟩ := exists_logged_two o (preimageUpdate 1 7) (preimageUpdate 2 8)
  obtain ⟨lu, hl⟩ := exists_listing (d .updates)
  refine ⟨d, lu, hl, (logged_updates_returned_iff Reachable.empty hlog ?_ hl).mpr ?_⟩
  · simp [preimageUpdate]
  · simp [preimageUpdate]

/-- After a force-close preimages 7 and 8 are provided in turn; the first of the two
updates is returned under no channel. -/
theorem closed_update_overwritten : ∃ (d : PersistDisk) (lu : Option (List DirEntry))
    (map : UpdateMap preimageKeeper),
    Logged preimageSerial [((⟨.ofByte 1, 0⟩ : OutPoint), preimageUpdate closedChannelUpdateId 7),
        (⟨.ofByte 1, 0⟩, preimageUpdate closedChannelUpdateId 8)] (fun _ => none) d ∧
      Listing (d .updates) lu ∧ readChannelmonitorUpdates preimageSerial lu = .ok map ∧
      ∀ txid us, map txid = some us → preimageUpdate closedChannelUpdateId 7 ∉ us := by
  generalize (⟨.ofByte 1, 0⟩ : OutPoint) = o
  obtain ⟨d, hlog⟩ := exists_logged_two o (preimageUpdate closedChannelUpdateId 7)
    (preimageUpdate closedChannelUpdateId 8)
  obtain ⟨lu, hl⟩ := exists_listing (d .updates)
  have hs := hlog.stores (stores_empty preimageSerial)
  obtain ⟨es, hread, -⟩ := readDir_updates_stores hs hl
  have hmap := readChannelmonitorUpdates_of_readDir hread
  refine ⟨d, lu, _, hlog, hl, hmap, fun txid us hus hu => ?_⟩
  obtain ⟨o', -, ho'⟩ := (mem_readChannelmonitorUpdates hs hl hmap txid _).mp ⟨us, hus, hu⟩
  simp only [Store.logAll, List.foldl_cons, List.foldl_nil, Store.log_upd] at ho'
  by_cases h : o' = o
  · rw [if_pos ⟨h, rfl⟩] at ho'
    exact absurd (preimageUpdate_inj (Option.some.inj ho')).2 (by decide)
  · rw [if_neg fun hc => h hc.1, if_neg fun hc => h hc.1] at ho'
    cases ho'

/-! ## Replaying them -/

variable {M : MonitorImpl} {S : Serial M}

/-- The updates the loop calls `update_monitor` with on channel `o`'s monitor, in
order. -/
def callsOn (map : UpdateMap M) (ms : List (ChannelMonitor M)) (o : OutPoint) :
    List (ChannelMonitorUpdate M) :=
  ((replayCalls map ms).filter fun c => c.1 = o).map Prod.snd

theorem callsOn_cons (map : UpdateMap M) (m : ChannelMonitor M) (ms : List (ChannelMonitor M))
    (o : OutPoint) : callsOn map (m :: ms) o =
      (if m.fundingTxo = o then calls updateMonitor (updatesFor map m) m else []) ++
        match replayUpdates map m with
        | .done _ => callsOn map ms o
        | _ => [] := by
  rw [callsOn, replayCalls, List.filter_append, List.map_append]
  congr 1
  · by_cases ho : m.fundingTxo = o
    · simp [ho, List.filter_map, Function.comp_def]
    · simp [ho, List.filter_map, Function.comp_def]
  · cases replayUpdates map m <;> rfl

theorem callsOn_of_notMem {map : UpdateMap M} {ms : List (ChannelMonitor M)} {o : OutPoint}
    (h : o ∉ ms.map ChannelMonitor.fundingTxo) : callsOn map ms o = [] := by
  induction ms with
  | nil => rfl
  | cons m ms ih =>
    rw [List.map_cons, List.mem_cons, not_or] at h
    rw [callsOn_cons, if_neg (fun he => h.1 he.symm), List.nil_append]
    split
    · exact ih h.2
    · rfl

/-- **A loop that gets through applies all updates of a channel's group.** -/
theorem callsOn_of_done {map : UpdateMap M} {ms ms' : List (ChannelMonitor M)}
    (hnodup : (ms.map ChannelMonitor.fundingTxo).Nodup) (hdone : replayMonitors map ms = .done ms')
    {m : ChannelMonitor M} (hm : m ∈ ms) : callsOn map ms m.fundingTxo = updatesFor map m := by
  induction ms generalizing ms' with
  | nil => cases hm
  | cons m₁ ms ih =>
    obtain ⟨hnot, hnodup⟩ := List.nodup_cons.mp hnodup
    obtain ⟨m', hm'⟩ := done_of_replayMonitors hdone m₁ List.mem_cons_self
    rw [callsOn_cons, hm']
    dsimp only
    rcases List.mem_cons.mp hm with rfl | hm
    · rw [if_pos rfl, callsOn_of_notMem hnot, List.append_nil]
      exact calls_of_done hm'
    · have hne : m₁.fundingTxo ≠ m.fundingTxo := fun he => hnot (he ▸ List.mem_map_of_mem hm)
      rw [if_neg hne, List.nil_append]
      rw [replayMonitors, hm'] at hdone
      dsimp only at hdone
      split at hdone
      · cases hdone
      · cases hdone
      · exact ih hnodup ‹_› hm

variable (S)

/-- The updates stored under outpoint `o`, each once, by increasing number. -/
structure OwnInOrder (o : OutPoint) (updates : Option (List DirEntry))
    (us : List (ChannelMonitorUpdate M)) : Prop where
  ascending : us.Pairwise fun a b => a.updateId.toNat < b.updateId.toNat
  mem_iff : ∀ u, u ∈ us ↔ u ∈ storedUpdates S o updates

variable {S}

theorem ownInOrder_sortUpdates {d : PersistDisk} {s : Store M} (hs : Stores S d s)
    {lu : Option (List DirEntry)} (hl : Listing (d .updates) lu) (o : OutPoint) :
    OwnInOrder S o lu (sortUpdates (storedUpdates S o lu)) where
  mem_iff u := (sortBy_perm _).mem_iff
  ascending := by
    obtain ⟨es, hread, hes⟩ := readDir_updates_stores hs hl
    have hids : ((storedUpdates S o lu).map fun u => u.updateId.toNat).Nodup := by
      rw [storedUpdates, hread, List.map_map]
      refine List.Nodup.map_on (fun e he e' he' hid => ?_)
        (List.Nodup.filter _ (List.Nodup.of_map _ hes.nodup))
      simp only [List.mem_filter, decide_eq_true_eq] at he he'
      exact List.inj_on_of_nodup_map hes.nodup he.1 he'.1
        (Prod.ext (he.2.trans he'.2.symm) (UInt64.toNat_inj.mp hid))
    have hsorted : ((sortUpdates (storedUpdates S o lu)).map fun u => u.updateId.toNat).Nodup :=
      ((sortBy_perm _).map _).nodup_iff.mpr hids
    exact ((sortBy_pairwise _).and (List.pairwise_map.mp hsorted)).imp fun h =>
      Nat.lt_of_le_of_ne h.1 h.2

/-- If what is called are a channel's own updates, then no other output of its transaction has
one: it would be stored under both outpoints, and called twice. -/
theorem OwnInOrder.outpoint_eq {d : PersistDisk} {s : Store M} (hs : Stores S d s)
    {lu : Option (List DirEntry)} (hlu : Listing (d .updates) lu)
    {es : List (OutPoint × ChannelMonitorUpdate M)} (hes : Updates s es) {own : OutPoint}
    {us : List (ChannelMonitorUpdate M)} (h : OwnInOrder S own lu us)
    (hperm : us.Perm ((es.filter fun e => e.1.txid = own.txid).map Prod.snd)) {o : OutPoint}
    {i : UInt64} {u : ChannelMonitorUpdate M} (hu : s.upd o i = some u)
    (htxid : o.txid = own.txid) : o = own := by
  obtain rfl := s.upd_updateId hu
  have hnodup : ((es.filter fun e => e.1.txid = own.txid).map Prod.snd).Nodup := by
    refine hperm.nodup_iff.mp (h.ascending.imp fun hlt he => ?_)
    rw [he] at hlt
    exact Nat.lt_irrefl _ hlt
  have hforeign : (o, u) ∈ es.filter fun e => e.1.txid = own.txid :=
    List.mem_filter.mpr ⟨(hes.mem_iff o u).mpr hu, decide_eq_true htxid⟩
  have hcalled := hperm.mem_iff.mpr (List.mem_map_of_mem (f := Prod.snd) hforeign)
  have hstored := (mem_storedUpdates hs hlu u).mp ((h.mem_iff u).mp hcalled)
  have hmine : (own, u) ∈ es.filter fun e => e.1.txid = own.txid :=
    List.mem_filter.mpr ⟨(hes.mem_iff _ u).mpr hstored, decide_eq_true rfl⟩
  exact congrArg Prod.fst (List.inj_on_of_nodup_map hnodup hforeign hmine rfl)

theorem OwnInOrder.eq_sortUpdates {d : PersistDisk} {s : Store M} (hs : Stores S d s)
    {lu : Option (List DirEntry)} (hl : Listing (d .updates) lu) {o : OutPoint}
    {us : List (ChannelMonitorUpdate M)} (h : OwnInOrder S o lu us) :
    us = sortUpdates (storedUpdates S o lu) := by
  have hown := ownInOrder_sortUpdates hs hl o
  have hnodup : ∀ {vs : List (ChannelMonitorUpdate M)}, OwnInOrder S o lu vs → vs.Nodup :=
    fun h => h.ascending.imp fun hlt he => by
      rw [he] at hlt
      exact Nat.lt_irrefl _ hlt
  have hperm : us.Perm (sortUpdates (storedUpdates S o lu)) :=
    (List.perm_ext_iff_of_nodup (hnodup h) (hnodup hown)).mpr fun u =>
      (h.mem_iff u).trans (hown.mem_iff u).symm
  exact hperm.eq_of_pairwise (fun a b _ _ hab hba => absurd hab (Nat.lt_asymm hba))
    h.ascending hown.ascending

/-- No update of another output of the transaction is stored. -/
def OnlyOwn (d : PersistDisk) (o : OutPoint) : Prop :=
  ∀ o' i, o'.txid = o.txid → o' ≠ o → look d .updates (updateFilename o' i) = none

/-- The group of a channel is its own updates exactly if no other output of its transaction has
one. -/
theorem updatesFor_eq_own_iff {d : PersistDisk} {s : Store M} (hs : Stores S d s)
    {lu : Option (List DirEntry)} (hl : Listing (d .updates) lu) {map : UpdateMap M}
    (hmap : readChannelmonitorUpdates S lu = .ok map) (m : ChannelMonitor M) :
    sortUpdates (storedUpdates S m.fundingTxo lu) = updatesFor map m ↔
      OnlyOwn d m.fundingTxo := by
  obtain ⟨es, hread, hes⟩ := readDir_updates_stores hs hl
  cases (readChannelmonitorUpdates_of_readDir hread).symm.trans hmap
  simp only [OnlyOwn, hs.updates, Option.map_eq_none_iff]
  constructor
  · intro hgroup o i htxid hne
    by_contra hi
    obtain ⟨u, hu⟩ := Option.ne_none_iff_exists'.mp hi
    have hperm : (sortUpdates (storedUpdates S m.fundingTxo lu)).Perm
        ((es.filter fun e => e.1.txid = m.fundingTxo.txid).map Prod.snd) := by
      rw [hgroup, updatesFor_foldl]
      exact sortBy_perm _
    exact hne ((ownInOrder_sortUpdates hs hl m.fundingTxo).outpoint_eq hs hl hes hperm hu htxid)
  · intro halone
    rw [updatesFor_foldl, hes.filter_txid_eq halone, storedUpdates, hread]

variable (S)

/-- The channel is given its own updates alone, and they are accepted. -/
structure AcceptsOwn (d : PersistDisk) (lu : Option (List DirEntry)) (m : ChannelMonitor M) :
    Prop where
  onlyOwn : OnlyOwn d m.fundingTxo
  accepts : Accepts updateMonitor (sortUpdates (storedUpdates S m.fundingTxo lu)) m

/-- The last of the channel's own updates is refused, before an update of another output comes
up. -/
structure EndsAtLastOwn (map : UpdateMap M) (lu : Option (List DirEntry)) (m : ChannelMonitor M) :
    Prop where
  ownFirst : sortUpdates (storedUpdates S m.fundingTxo lu) <+: updatesFor map m
  acceptsOthers : Accepts updateMonitor (sortUpdates (storedUpdates S m.fundingTxo lu)).dropLast m
  refusesLast : ¬ Accepts updateMonitor (sortUpdates (storedUpdates S m.fundingTxo lu)) m

variable {S}

/-- After a channel whose group is accepted the loop goes on to the others. -/
theorem callsOn_cons_of_done {map : UpdateMap M} {m m₁ : ChannelMonitor M}
    (hdone : replayUpdates map m = .done m₁) {ms : List (ChannelMonitor M)} {o : OutPoint}
    (hne : m.fundingTxo ≠ o) : callsOn map (m :: ms) o = callsOn map ms o := by
  rw [callsOn_cons, if_neg hne, List.nil_append, hdone]

/-- With one whose group is not, it ends. -/
theorem callsOn_cons_of_ended {map : UpdateMap M} {m : ChannelMonitor M}
    (hended : ¬ Accepts updateMonitor (updatesFor map m) m) {ms : List (ChannelMonitor M)}
    {o : OutPoint} (hne : m.fundingTxo ≠ o) : callsOn map (m :: ms) o = [] := by
  rw [callsOn_cons, if_neg hne, List.nil_append]
  split
  · exact absurd ⟨_, ‹_›⟩ hended
  · rfl

/-- **Which updates the loop applies to each channel**: given ones, if each channel's group is these
and is accepted; or if the last of them all is refused, and with it the loop ends. -/
theorem callsOn_eq_iff {map : UpdateMap M} (own : OutPoint → List (ChannelMonitorUpdate M))
    {ms : List (ChannelMonitor M)} (hnodup : (ms.map ChannelMonitor.fundingTxo).Nodup) :
    (∀ m ∈ ms, callsOn map ms m.fundingTxo = own m.fundingTxo) ↔
      (∀ m ∈ ms, own m.fundingTxo = updatesFor map m ∧
        Accepts updateMonitor (own m.fundingTxo) m) ∨
      ∃ front m back, ms = front ++ m :: back ∧
        (∀ m ∈ front, own m.fundingTxo = updatesFor map m ∧
          Accepts updateMonitor (own m.fundingTxo) m) ∧
        (own m.fundingTxo <+: updatesFor map m ∧
          Accepts updateMonitor (own m.fundingTxo).dropLast m ∧
          ¬ Accepts updateMonitor (own m.fundingTxo) m) ∧
        ∀ m ∈ back, own m.fundingTxo = [] := by
  induction ms with
  | nil =>
    have hnone : ∀ {p : ChannelMonitor M → Prop}, ∀ m ∈ [], p m := fun m hm =>
      absurd hm List.not_mem_nil
    exact iff_of_true hnone (Or.inl hnone)
  | cons m ms ih =>
    obtain ⟨hnot, hnodup⟩ := List.nodup_cons.mp hnodup
    have hfirst : callsOn map (m :: ms) m.fundingTxo =
        calls updateMonitor (updatesFor map m) m := by
      rw [callsOn_cons, if_pos rfl, callsOn_of_notMem hnot]
      split
      · exact List.append_nil _
      · exact List.append_nil _
    have hother : ∀ m' ∈ ms, m.fundingTxo ≠ m'.fundingTxo := fun m' hm' he =>
      hnot (he ▸ List.mem_map_of_mem hm')
    rw [List.forall_mem_cons, hfirst, calls_eq_iff]
    by_cases hgroup : Accepts updateMonitor (updatesFor map m) m
    · -- the loop goes on to the other channels
      obtain ⟨m₁, hm₁⟩ := hgroup
      have hrest : (∀ m' ∈ ms, callsOn map (m :: ms) m'.fundingTxo = own m'.fundingTxo) ↔
          ∀ m' ∈ ms, callsOn map ms m'.fundingTxo = own m'.fundingTxo := by
        refine forall₂_congr fun m' hm' => ?_
        rw [callsOn_cons_of_done hm₁ (hother m' hm')]
      rw [hrest, ih hnodup]
      constructor
      · rintro ⟨hown | ⟨hpre, -, hrefused⟩, hall | ⟨front, m', back, rfl, hfront, hlast, hback⟩⟩
        · exact Or.inl (List.forall_mem_cons.mpr ⟨hown, hall⟩)
        · exact Or.inr ⟨m :: front, m', back, rfl, List.forall_mem_cons.mpr ⟨hown, hfront⟩, hlast,
            hback⟩
        · exact absurd (Accepts.of_initial ⟨m₁, hm₁⟩ hpre) hrefused
        · exact absurd (Accepts.of_initial ⟨m₁, hm₁⟩ hpre) hrefused
      · rintro (hall | ⟨front, m', back, heq, hfront, hlast, hback⟩)
        · obtain ⟨hown, hall⟩ := List.forall_mem_cons.mp hall
          exact ⟨Or.inl hown, Or.inl hall⟩
        · cases front with
          | nil =>
            cases heq
            exact absurd (Accepts.of_initial ⟨m₁, hm₁⟩ hlast.1) hlast.2.2
          | cons m₂ front =>
            cases heq
            obtain ⟨hown, hfront⟩ := List.forall_mem_cons.mp hfront
            exact ⟨Or.inl hown, Or.inr ⟨front, m', back, rfl, hfront, hlast, hback⟩⟩
    · -- the loop ends with this channel
      have hrest : (∀ m' ∈ ms, callsOn map (m :: ms) m'.fundingTxo = own m'.fundingTxo) ↔
          ∀ m' ∈ ms, own m'.fundingTxo = [] := by
        refine forall₂_congr fun m' hm' => ?_
        rw [callsOn_cons_of_ended hgroup (hother m' hm'), eq_comm]
      rw [hrest]
      constructor
      · rintro ⟨⟨hown, haccepts⟩ | hlast, hback⟩
        · exact absurd (hown ▸ haccepts) hgroup
        · exact Or.inr ⟨[], m, ms, rfl, List.forall_mem_nil _, hlast, hback⟩
      · rintro (hall | ⟨front, m', back, heq, hfront, hlast, hback⟩)
        · obtain ⟨⟨hown, haccepts⟩, -⟩ := List.forall_mem_cons.mp hall
          exact absurd (hown ▸ haccepts) hgroup
        · cases front with
          | nil =>
            cases heq
            exact ⟨Or.inr hlast, hback⟩
          | cons m₂ front =>
            cases heq
            obtain ⟨⟨hown, haccepts⟩, -⟩ := List.forall_mem_cons.mp hfront
            exact absurd (hown ▸ haccepts) hgroup

/-- **Updates are replayed onto the channel they were stored for exactly when no other output of
the channels' funding transactions has any stored and none of them is refused**: or when only the
last of them all is, so that startup ends before an update of another output comes up. -/
theorem replay_calls_own_iff {d : PersistDisk} (hd : Reachable S d)
    {lm lu : Option (List DirEntry)} (hlm : Listing (d .monitors) lm)
    (hlu : Listing (d .updates) lu) {ms : List (ChannelMonitor M)} {map : UpdateMap M}
    (hms : readChannelmonitors S lm = .ok ms) (hmap : readChannelmonitorUpdates S lu = .ok map) :
    (∀ m ∈ ms, OwnInOrder S m.fundingTxo lu (callsOn map ms m.fundingTxo)) ↔
      (∀ m ∈ ms, AcceptsOwn S d lu m) ∨
      ∃ front m back, ms = front ++ m :: back ∧ (∀ m ∈ front, AcceptsOwn S d lu m) ∧
        EndsAtLastOwn S map lu m ∧ ∀ m ∈ back, storedUpdates S m.fundingTxo lu = [] := by
  obtain ⟨s, hs⟩ := hd.stores
  obtain ⟨ms₁, hms₁, hsnap⟩ := readChannelmonitors_stores hs hlm
  cases hms₁.symm.trans hms
  have hown : ∀ (m : ChannelMonitor M) us, OwnInOrder S m.fundingTxo lu us ↔
      us = sortUpdates (storedUpdates S m.fundingTxo lu) := fun m us =>
    ⟨fun h => h.eq_sortUpdates hs hlu, fun h => h ▸ ownInOrder_sortUpdates hs hlu m.fundingTxo⟩
  have haccepts : ∀ m : ChannelMonitor M,
      sortUpdates (storedUpdates S m.fundingTxo lu) = updatesFor map m ∧
        Accepts updateMonitor (sortUpdates (storedUpdates S m.fundingTxo lu)) m ↔
      AcceptsOwn S d lu m := fun m => by
    rw [updatesFor_eq_own_iff hs hlu hmap]
    exact ⟨fun h => ⟨h.1, h.2⟩, fun h => ⟨h.1, h.2⟩⟩
  have hends : ∀ m : ChannelMonitor M,
      sortUpdates (storedUpdates S m.fundingTxo lu) <+: updatesFor map m ∧
        Accepts updateMonitor (sortUpdates (storedUpdates S m.fundingTxo lu)).dropLast m ∧
        ¬ Accepts updateMonitor (sortUpdates (storedUpdates S m.fundingTxo lu)) m ↔
      EndsAtLastOwn S map lu m := fun m =>
    ⟨fun h => ⟨h.1, h.2.1, h.2.2⟩, fun h => ⟨h.1, h.2, h.3⟩⟩
  have hnone : ∀ o, sortUpdates (storedUpdates S o lu) = [] ↔ storedUpdates S o lu = [] := fun o =>
    ⟨fun h => ((sortBy_perm _).symm.trans (.of_eq h)).eq_nil,
      fun h => by rw [h, sortUpdates, sortBy, List.mergeSort_nil]⟩
  simp only [hown]
  rw [callsOn_eq_iff (fun o => sortUpdates (storedUpdates S o lu)) hsnap.nodup]
  simp only [haccepts, hends, hnone]

/-! ## Two outputs of one transaction -/

/-- The updates read from a store with a single one. -/
theorem Updates.eq_singleton {s : Store M} {o : OutPoint} {u : ChannelMonitorUpdate M}
    (hnone : ∀ o' i, s.upd o' i = none) {es : List (OutPoint × ChannelMonitorUpdate M)}
    (hes : Updates (s.log o u) es) : es = [(o, u)] := by
  refine List.perm_singleton.mp ((List.perm_ext_iff_of_nodup
    (List.Nodup.of_map _ hes.nodup) (List.nodup_singleton _)).mpr fun e => ?_)
  rw [hes.mem_iff e.1 e.2, Store.log_upd, hnone, List.mem_singleton]
  constructor
  · intro h
    split at h
    · rename_i hc
      exact Prod.ext hc.1 (Option.some.inj h).symm
    · cases h
  · rintro rfl
    exact if_pos ⟨rfl, rfl⟩

/-- Channels in a just-opened state whose group of updates is one preimage. -/
theorem replayUpdates_opened {o : OutPoint} {map : UpdateMap preimageKeeper} {p : Nat}
    (h : updatesFor map (openedMonitor o) = [preimageUpdate 1 p]) :
    replayUpdates map (openedMonitor o) =
      .done { openedMonitor o with latestUpdateId := 1, state := [p] } := by
  rw [replayUpdates, h, replay, updateMonitor_preimageUpdate 1 p (Or.inr rfl)]
  rfl

/-- A single channel is given its own update. -/
theorem single_channel_replays_own : ∃ (d : PersistDisk) (lm lu : Option (List DirEntry))
    (ms : List (ChannelMonitor preimageKeeper)) (map : UpdateMap preimageKeeper),
    Reachable preimageSerial d ∧ Listing (d .monitors) lm ∧ Listing (d .updates) lu ∧
      readChannelmonitors preimageSerial lm = .ok ms ∧
      readChannelmonitorUpdates preimageSerial lu = .ok map ∧
      openedMonitor ⟨.ofByte 1, 0⟩ ∈ ms ∧
      ∀ m ∈ ms, OwnInOrder preimageSerial m.fundingTxo lu (callsOn map ms m.fundingTxo) := by
  generalize (⟨.ofByte 1, 0⟩ : OutPoint) = o
  obtain ⟨d, hd, hs⟩ := exists_reachable_preimage o
  obtain ⟨lm, hlm⟩ := exists_listing (d .monitors)
  obtain ⟨lu, hlu⟩ := exists_listing (d .updates)
  obtain ⟨ms, hms, hsnap⟩ := readChannelmonitors_stores hs hlm
  obtain ⟨es, hread, hes⟩ := readDir_updates_stores hs hlu
  have hmap := readChannelmonitorUpdates_of_readDir hread
  obtain rfl := hes.eq_singleton fun _ _ => rfl
  have honly : ∀ m ∈ ms, m = openedMonitor o := by
    intro m hm
    have hm := (hsnap.mem_iff m).mp hm
    have hsave : (Store.empty.save (openedMonitor o)).snap m.fundingTxo = some m := hm
    rw [Store.save_snap] at hsave
    split at hsave
    · exact (Option.some.inj hsave).symm
    · cases hsave
  have hmem : openedMonitor o ∈ ms := (hsnap.mem_iff _).mpr (if_pos rfl)
  refine ⟨d, lm, lu, ms, _, hd, hlm, hlu, hms, hmap, hmem, ?_⟩
  have hown : storedUpdates preimageSerial o lu = [preimageUpdate 1 7] := by
    rw [storedUpdates, hread]
    simp
  refine (replay_calls_own_iff hd hlm hlu hms hmap).mpr (Or.inl fun m hm => ⟨?_, ?_⟩)
  · intro o' i _ hne
    rw [honly m hm] at hne
    rw [hs.updates, Store.log_upd, if_neg fun hc => hne hc.1]
    rfl
  · rw [honly m hm]
    refine ⟨{ openedMonitor o with latestUpdateId := 1, state := [7] }, ?_⟩
    have hsorted : sortUpdates (storedUpdates preimageSerial (openedMonitor o).fundingTxo lu) =
        [preimageUpdate 1 7] := by
      simp [openedMonitor, hown, sortUpdates, sortBy]
    rw [hsorted, replay, updateMonitor_preimageUpdate 1 7 (Or.inr rfl)]
    rfl

/-- Channels on outputs 0 and 1 of one transaction; channel 0 claims a payment with
preimage 7.  At startup the update is applied to channel 1 as well, for which none is
stored. -/
theorem sibling_channel_given_update : ∃ (d : PersistDisk) (lm lu : Option (List DirEntry))
    (ms : List (ChannelMonitor preimageKeeper)) (map : UpdateMap preimageKeeper),
    Reachable preimageSerial d ∧ Listing (d .monitors) lm ∧ Listing (d .updates) lu ∧
      readChannelmonitors preimageSerial lm = .ok ms ∧
      readChannelmonitorUpdates preimageSerial lu = .ok map ∧
      storedUpdates preimageSerial ⟨.ofByte 1, 1⟩ lu = [] ∧
      callsOn map ms ⟨.ofByte 1, 1⟩ = [preimageUpdate 1 7] := by
  generalize Txid.ofByte 1 = t
  obtain ⟨d₁, h₁⟩ := exists_completes (S := preimageSerial)
    (.persistNewChannel ⟨t, 0⟩ (openedMonitor ⟨t, 0⟩)) fun _ => none
  obtain ⟨d₂, h₂⟩ := exists_completes (S := preimageSerial)
    (.persistNewChannel ⟨t, 1⟩ (openedMonitor ⟨t, 1⟩)) d₁
  obtain ⟨d, h⟩ := exists_completes (S := preimageSerial)
    (.updatePersistedChannel ⟨t, 0⟩ (some (preimageUpdate 1 7)) (openedMonitor ⟨t, 0⟩)) d₂
  have hd : Reachable preimageSerial d :=
    ((Reachable.empty.call (by rfl) h₁).call (by rfl) h₂).call (by rfl) h
  have hs : Stores preimageSerial d (((Store.empty.save (openedMonitor ⟨t, 0⟩)).save
      (openedMonitor ⟨t, 1⟩)).log ⟨t, 0⟩ (preimageUpdate 1 7)) :=
    (((stores_empty _).call (by rfl) h₁).call (by rfl) h₂).call (by rfl) h
  obtain ⟨lm, hlm⟩ := exists_listing (d .monitors)
  obtain ⟨lu, hlu⟩ := exists_listing (d .updates)
  obtain ⟨ms, hms, hsnap⟩ := readChannelmonitors_stores hs hlm
  obtain ⟨es, hread, hes⟩ := readDir_updates_stores hs hlu
  have hmap := readChannelmonitorUpdates_of_readDir hread
  obtain rfl := hes.eq_singleton fun _ _ => rfl
  have hgroup : ∀ i, updatesFor ([((⟨t, 0⟩ : OutPoint), preimageUpdate 1 7)].foldl pushUpdate
      fun _ => none) (openedMonitor ⟨t, i⟩) = [preimageUpdate 1 7] := by
    intro i
    rw [updatesFor_foldl]
    simp [openedMonitor, sortUpdates, sortBy]
  have hopened : ∀ m ∈ ms, ∃ i, m = openedMonitor ⟨t, i⟩ := by
    intro m hm
    have hsave : ((Store.empty.save (openedMonitor ⟨t, 0⟩)).save (openedMonitor ⟨t, 1⟩)).snap
        m.fundingTxo = some m := (hsnap.mem_iff m).mp hm
    rw [Store.save_snap, Store.save_snap] at hsave
    split at hsave
    · exact ⟨1, (Option.some.inj hsave).symm⟩
    · split at hsave
      · exact ⟨0, (Option.some.inj hsave).symm⟩
      · cases hsave
  have hdone := replayMonitors_done (fun m => { m with latestUpdateId := 1, state := [7] })
    fun m hm => by
      obtain ⟨i, rfl⟩ := hopened m hm
      exact replayUpdates_opened (hgroup i)
  have hmem : openedMonitor ⟨t, 1⟩ ∈ ms := (hsnap.mem_iff _).mpr (if_pos rfl)
  refine ⟨d, lm, lu, ms, _, hd, hlm, hlu, hms, hmap, ?_, ?_⟩
  · refine storedUpdates_eq_nil hs hlu fun i => ?_
    rw [Store.log_upd, if_neg]
    · rfl
    · simp
  · exact (callsOn_of_done hsnap.nodup hdone hmem).trans (hgroup 1)

/-! ## Files of any name -/

section
variable (S)

/-- The loop with one more file that is read. -/
theorem readEntries_insert {α : Type} {read : DirEntry → Except Fault (Option α)} {e : DirEntry}
    {a : α} (he : read e = .ok (some a)) {front rest : List DirEntry} {as : List α}
    (h : readEntries read (front ++ rest) = .ok as) :
    ∃ before after, as = before ++ after ∧
      readEntries read (front ++ e :: rest) = .ok (before ++ a :: after) := by
  induction front generalizing as with
  | nil => exact ⟨[], as, rfl, readEntries_cons_eq_ok.mpr ⟨some a, as, he, h, rfl⟩⟩
  | cons e' front ih =>
    obtain ⟨a', as', hread, hrest, rfl⟩ := readEntries_cons_eq_ok.mp h
    obtain ⟨before, after, rfl, hinsert⟩ := ih hrest
    refine ⟨a'.toList ++ before, after, (List.append_assoc _ _ _).symm, ?_⟩
    exact readEntries_cons_eq_ok.mpr ⟨a', _, hread, hinsert, List.append_assoc _ _ _⟩

/-- No file makes the loop panic unless one of them does. -/
theorem readEntries_ne_panicked {α : Type} {read : DirEntry → Except Fault (Option α)}
    (h : ∀ e, read e ≠ .error .panicked) (es : List DirEntry) :
    readEntries read es ≠ .error .panicked := by
  induction es with
  | nil => exact nofun
  | cons e es ih =>
    intro hpanic
    rw [readEntries] at hpanic
    cases hread : read e with
    | error fault =>
      rw [hread] at hpanic
      cases hpanic
      exact h e hread
    | ok a =>
      rw [hread] at hpanic
      dsimp only at hpanic
      cases hrest : readEntries read es with
      | error fault =>
        rw [hrest] at hpanic
        cases hpanic
        exact ih hrest
      | ok as =>
        rw [hrest] at hpanic
        cases hpanic

/-- **One file never makes the reader panic**, whatever its name and its content. -/
theorem readChannelmonitorUpdate_ne_panicked (e : DirEntry) :
    readChannelmonitorUpdate S e ≠ .error .panicked := by
  obtain ⟨filename, contents⟩ := e
  intro hpanic
  rw [readChannelmonitorUpdate] at hpanic
  dsimp only at hpanic
  cases filename with
  | none => cases hpanic
  | some name =>
    rcases checkFilename_cases name with hskip | hrefused | ⟨haccepted, hlong⟩
    · rw [hskip] at hpanic
      cases hpanic
    · rw [hrefused] at hpanic
      cases hpanic
    · rw [haccepted] at hpanic
      dsimp only at hpanic
      cases hid : parseUpdateFilename name with
      | error fault =>
        rw [hid] at hpanic
        cases hpanic
        exact parseUpdateFilename_ne_panicked hlong hid
      | ok id =>
        rw [hid] at hpanic
        dsimp only at hpanic
        split at hpanic
        · cases hpanic
        · split at hpanic
          · cases hpanic
          · cases hpanic

/-- **A name without a `_` is skipped or refused**, before part 1 is read. -/
theorem readChannelmonitorUpdate_of_notMem {name : Text} (h : '_' ∉ name)
    (contents : Option (List UInt8)) :
    readChannelmonitorUpdate S ⟨some name, contents⟩ = .ok none ∨
      readChannelmonitorUpdate S ⟨some name, contents⟩ = .error (.failed .invalidFileName) ∨
      readChannelmonitorUpdate S ⟨some name, contents⟩ = .error (.failed (.invalidTxid name)) := by
  have hcheck := checkFilename_cases name
  rw [readChannelmonitorUpdate]
  dsimp only
  rcases hcheck with hskip | hrefused | ⟨haccepted, hlong⟩
  · exact Or.inl (by rw [hskip])
  · exact Or.inr (Or.inl (by rw [hrefused]))
  · refine Or.inr (Or.inr ?_)
    rw [haccepted]
    dsimp only
    rw [parseUpdateFilename_of_notMem hlong h]

/-- The update in a file of the persister's name. -/
theorem readChannelmonitorUpdate_updateFilename (id : OutPoint) (updateId : UInt64)
    {bytes : List UInt8} {u : ChannelMonitorUpdate M} (h : S.update.read bytes = some u) :
    readChannelmonitorUpdate S ⟨some (updateFilename id updateId), some bytes⟩ =
      .ok (some (id, u)) := by
  rw [readChannelmonitorUpdate, (wellformed_updateFilename id updateId).checkFilename_eq]
  dsimp only
  rw [parseUpdateFilename_updateFilename]
  dsimp only
  rw [h]

end

/-- One more update goes to the group of its txid, and to no other. -/
theorem foldl_pushUpdate_insert (before after : List (OutPoint × ChannelMonitorUpdate M))
    (id : OutPoint) (u : ChannelMonitorUpdate M) :
    (∀ txid, txid ≠ id.txid → ((before ++ (id, u) :: after).foldl pushUpdate fun _ => none) txid =
      ((before ++ after).foldl pushUpdate fun _ => none) txid) ∧
    ∃ us us', (((before ++ after).foldl pushUpdate fun _ => none) id.txid).getD [] = us ++ us' ∧
      ((before ++ (id, u) :: after).foldl pushUpdate fun _ => none) id.txid =
        some (us ++ u :: us') := by
  constructor
  · intro txid htxid
    have hother : decide (id.txid = txid) = false := decide_eq_false fun h => htxid h.symm
    simp only [foldl_pushUpdate, List.any_append, List.any_cons, List.filter_append,
      List.filter_cons, hother, Bool.false_or, Bool.false_eq_true, if_false]
  · refine ⟨(before.filter fun e => e.1.txid = id.txid).map Prod.snd,
      (after.filter fun e => e.1.txid = id.txid).map Prod.snd, ?_, ?_⟩
    · rw [getD_foldl_pushUpdate, List.filter_append, List.map_append]
    · rw [foldl_pushUpdate]
      simp

/-- **Names are read safely, and inversely on the persister's own.**  For every listing, with names
of any length and any characters, the reader never takes a part that is not there; a name without
a `_` is skipped or refused.  For every outpoint and every number, the name of the update passes
the checks, its first two parts are read as the outpoint, and the update in the file is added to
the group of that txid and to no other, wherever the file is listed. -/
theorem update_names_read (S : Serial M) :
    (∀ listing, readChannelmonitorUpdates S listing ≠ .error .panicked) ∧
    (∀ name contents, '_' ∉ name →
      readChannelmonitorUpdate S ⟨some name, contents⟩ = .ok none ∨
      ∃ e, readChannelmonitorUpdate S ⟨some name, contents⟩ = .error (.failed e)) ∧
    ∀ id updateId,
      checkFilename (some (updateFilename id updateId)) =
        .ok (some (updateFilename id updateId)) ∧
      (∃ part₀ part₁ parts, (updateFilename id updateId).splitOn '_' = part₀ :: part₁ :: parts ∧
        Txid.fromHex part₀ = some id.txid ∧ parseUnsigned 65535 part₁ = some id.index.toNat) ∧
      parseUpdateFilename (updateFilename id updateId) = .ok id ∧
      ∀ bytes u front rest map, S.update.read bytes = some u →
        readChannelmonitorUpdates S (some (front ++ rest)) = .ok map →
        ∃ map', readChannelmonitorUpdates S
            (some (front ++ ⟨some (updateFilename id updateId), some bytes⟩ :: rest)) = .ok map' ∧
          (∀ txid, txid ≠ id.txid → map' txid = map txid) ∧
          ∃ us us', (map id.txid).getD [] = us ++ us' ∧
            map' id.txid = some (us ++ u :: us') := by
  refine ⟨?_, ?_, ?_⟩
  · intro listing hpanic
    unfold readChannelmonitorUpdates at hpanic
    split at hpanic
    · rename_i fault hfault
      cases hpanic
      cases listing with
      | none => cases hfault
      | some es => exact readEntries_ne_panicked (readChannelmonitorUpdate_ne_panicked S) es hfault
    · cases hpanic
  · intro name contents hname
    rcases readChannelmonitorUpdate_of_notMem S hname contents with hskip | hfailed | hfailed
    · exact Or.inl hskip
    · exact Or.inr ⟨_, hfailed⟩
    · exact Or.inr ⟨_, hfailed⟩
  · intro id updateId
    refine ⟨(wellformed_updateFilename id updateId).checkFilename_eq,
      ⟨_, _, _, splitOn_updateFilename id updateId, Txid.fromHex_toHex _,
        parseUnsigned_uint16 _⟩, parseUpdateFilename_updateFilename id updateId, ?_⟩
    intro bytes u front rest map hbytes hmap
    have hread := readChannelmonitorUpdate_updateFilename S id updateId hbytes
    unfold readChannelmonitorUpdates at hmap
    cases hes : readDir (readChannelmonitorUpdate S) (some (front ++ rest)) with
    | error fault =>
      rw [hes] at hmap
      cases hmap
    | ok es =>
      rw [hes] at hmap
      cases hmap
      obtain ⟨before, after, rfl, hinsert⟩ := readEntries_insert hread hes
      exact ⟨_, readChannelmonitorUpdates_of_readDir hinsert,
        foldl_pushUpdate_insert before after id u⟩

/-- A directory with the claim of a payment on output 0. -/
theorem update_names_read_claim : ∃ map, readChannelmonitorUpdates preimageSerial
    (some [⟨some (updateFilename ⟨.ofByte 1, 0⟩ 1),
      some (preimageSerial.update.write (preimageUpdate 1 7)).flatten⟩]) = .ok map ∧
    map (.ofByte 1) = some [preimageUpdate 1 7] := by
  obtain ⟨-, -, hnames⟩ := update_names_read preimageSerial
  obtain ⟨-, -, -, hadded⟩ := hnames ⟨.ofByte 1, 0⟩ 1
  obtain ⟨map, hmap, -, us, us', hnone, hus⟩ := hadded _ _ [] [] _
    (preimageSerial.update.read_write (preimageUpdate 1 7)) rfl
  obtain ⟨rfl, rfl⟩ := List.append_eq_nil_iff.mp hnone.symm
  exact ⟨map, hmap, hus⟩

end HiddenLightning
