import HiddenLightning.PeerDelivery
import HiddenLightning.PeerPauses

/-! # What a connection can get stuck by

`connection_delivers` says what has been read once nothing is left to write or on the way.  But an
end whose reading is paused leaves what arrives on the way, so that two ends whose sockets refuse
wait for each other.

As long as an end is not paused without a reason (`Backed`), whatever the sockets have refused so
far: once they take what the ends have, it reads all it has been sent (`flushed_spec`).  Before the
handshake is done no end is (`Calm`), so three times of this take it to its end
(`handshake_completes`).  And two ends at rest are not waiting for each other in the middle of it
(`Inv.at_rest`): each sends with what the other receives with, and all has been read
(`connection_goes_on`). -/
namespace HiddenLightning
namespace Noise
open KeyStreams FrameBuffers

variable {Sk Pk H : Type} {c : NoiseCrypto Sk Pk} {m : Side → PeerManager Sk Pk H}

/-! ## Everything is written -/

/-- What a socket answers that takes each buffer whole. -/
def Peer.wholeBuffers (peer : Peer Sk Pk) : List Nat := peer.pendingOutboundBuffer.map List.length

/-- The whole queue is written, and reading is resumed if there was something in it. -/
theorem writeLoop_whole {queue : List Bytes} {offset : Nat} (h : OffsetFits queue offset)
    (readPaused : Bool) : writeLoop readPaused queue offset (queue.map List.length) =
      ⟨[], 0, false, readPaused && queue.isEmpty, remaining queue offset⟩ := by
  induction queue generalizing readPaused offset with
  | nil =>
    obtain rfl : offset = 0 := Nat.le_zero.mp h
    simp [writeLoop, remaining]
  | cons nextBuff queue ih =>
    have hle : offset ≤ nextBuff.length := h
    have hsent : min nextBuff.length (nextBuff.drop offset).length =
        (nextBuff.drop offset).length := by
      rw [List.length_drop]
      omega
    have hfull : offset + (nextBuff.drop offset).length = nextBuff.length := by
      rw [List.length_drop]
      omega
    have hrest : remaining queue 0 = queue.flatten := by
      cases queue <;> simp [remaining]
    have hlast : (readPaused && !decide (queue.length + 1 < outboundBufferLimitReadPause) &&
        queue.isEmpty) = false := by
      cases queue with
      | nil => simp [outboundBufferLimitReadPause]
      | cons second queue => simp
    simp only [writeLoop, List.map_cons, List.headD_cons, List.tail_cons, hsent, hfull, if_true,
      ih (Nat.zero_le _), List.take_length, hrest, hlast, List.isEmpty_cons, Bool.and_false]
    rfl

/-- The connection, with nothing left to write: its task has come round, and reading is resumed if
there was something. -/
def Connection.written (conn : Connection Sk Pk H) (task : ReadTask) : Connection Sk Pk H :=
  conn.wrote ⟨[], 0, false,
    (conn.readPaused || task.pauses) && conn.peer.pendingOutboundBuffer.isEmpty, []⟩

/-- The end has written all it had, once its task has come round. -/
theorem handleOwn_wholeBuffers {conn : Connection Sk Pk H} (hup : conn.down = none)
    (h : OffsetFits conn.peer.pendingOutboundBuffer conn.peer.pendingOutboundBufferFirstMsgOffset)
    (task : ReadTask) :
    (scheduleRead conn task).1.handleOwn c (.spaceAvail conn.peer.wholeBuffers) =
      (conn.written task, conn.unsent) := by
  have hloop := writeLoop_whole h (conn.readPaused || task.pauses)
  rw [Connection.handleOwn, scheduleRead, if_pos hup, writeBufferSpaceAvail, doAttemptWriteData]
  simp only [Connection.setAwaiting, Peer.wholeBuffers, hloop, Bool.false_eq_true, if_false]
  rfl

/-! ## Everything arrives -/

variable (c m)

/-- The task of one end comes round, and the end writes all it has. -/
def Link.writeAll (link : Link Sk Pk H) (s : Side) : Link Sk Pk H :=
  (link.step c m (.round s)).step c m (.own s (.spaceAvail (link.ends s).peer.wholeBuffers))

/-- One end writes all it has, and reads the next bytes. -/
def Link.turn (s : Side) (link : Link Sk Pk H) : Link Sk Pk H :=
  ((link.writeAll c m s).step c m (.round s)).step c m (.receive s readBufferLength)

/-- The other end writes all it has, and the one reads it by turns, and writes all it has itself. -/
def Link.flushed (link : Link Sk Pk H) (s : Side) : Link Sk Pk H :=
  (Link.turn c m s)^[((link.writeAll c m s.other).wire s).length / readBufferLength + 1]
    (link.writeAll c m s.other)

/-- More steps take the one link to the other. -/
def Link.Leads (link last : Link Sk Pk H) : Prop :=
  ∃ actions : List Action, (∀ action ∈ actions, action.Fits) ∧ last = link.run c m actions

variable {c m}

theorem Link.Leads.refl (link : Link Sk Pk H) : link.Leads c m link :=
  ⟨[], List.forall_mem_nil _, rfl⟩

theorem Link.Leads.step {link last : Link Sk Pk H} (h : link.Leads c m last) {action : Action}
    (hfits : action.Fits) : link.Leads c m (last.step c m action) := by
  obtain ⟨actions, hall, rfl⟩ := h
  refine ⟨actions ++ [action], List.forall_mem_append.mpr ⟨hall, ?_⟩, ?_⟩
  · exact List.forall_mem_singleton.mpr hfits
  · rw [Link.run, Link.run, List.foldl_append]
    rfl

/-- What every step keeps holds at the end. -/
theorem Link.Leads.good (hc : c.Lawful) (hm : ∀ s, (m s).Fits) {link last : Link Sk Pk H}
    (h : link.Leads c m last) (hgood : Good c m link) : Good c m last := by
  obtain ⟨actions, hall, rfl⟩ := h
  exact hgood.run hc hm hall

theorem Link.Leads.calm {link last : Link Sk Pk H} (h : link.Leads c m last) {s : Side}
    (hcalm : (link.ends s).Calm (link.tasks s)) : (last.ends s).Calm (last.tasks s) := by
  obtain ⟨actions, -, rfl⟩ := h
  exact run_keeps s (P := Connection.Calm) EndStep.calm hcalm actions

/-- An end that is up was up before. -/
theorem Link.Leads.up {link last : Link Sk Pk H} (h : link.Leads c m last) {s : Side}
    (hup : (last.ends s).down = none) : (link.ends s).down = none := by
  obtain ⟨actions, -, rfl⟩ := h
  by_contra hdown
  exact run_keeps s (P := fun conn _ => conn.down ≠ none) EndStep.down hdown actions hup

theorem Link.Leads.ready {link last : Link Sk Pk H} (h : link.Leads c m last) {s : Side}
    (hready : Ready (link.ends s)) : Ready (last.ends s) := by
  obtain ⟨actions, -, rfl⟩ := h
  exact run_keeps s (P := fun conn _ => Ready conn) EndStep.ready hready actions

section Turns
variable {start link : Link Sk Pk H} {s : Side}

theorem Link.Leads.writeAll (h : start.Leads c m link) (s : Side) :
    start.Leads c m (link.writeAll c m s) := by
  refine Link.Leads.step (h.step ?_) ?_
  · exact trivial
  · exact trivial

theorem Link.Leads.turn (h : start.Leads c m link) (s : Side) :
    start.Leads c m (link.turn c m s) := by
  refine Link.Leads.step ((h.writeAll s).step ?_) ?_
  · exact trivial
  · exact trivial

theorem Link.Leads.turns (h : start.Leads c m link) (s : Side) (n : Nat) :
    start.Leads c m ((Link.turn c m s)^[n] link) := by
  induction n generalizing link with
  | zero => exact h
  | succ n ih => exact ih (h.turn s)

/-- A flush is a run like any other. -/
theorem Link.Leads.flushed (h : start.Leads c m link) (s : Side) :
    start.Leads c m (link.flushed c m s) :=
  (h.writeAll s.other).turns s _

theorem writeAll_other : (link.writeAll c m s).ends s.other = link.ends s.other := by
  simp [Link.writeAll, Link.step]

theorem writeAll_wire : (link.writeAll c m s).wire s = link.wire s := by
  simp [Link.writeAll, Link.step]

/-- An end that is up has written all it has. -/
theorem writeAll_spec (h : Good c m link) (hup : (link.ends s).down = none) :
    (link.writeAll c m s).ends s = (link.ends s).written (link.tasks s) ∧
      (link.writeAll c m s).wire s.other = link.wire s.other ++ (link.ends s).unsent := by
  have hown := handleOwn_wholeBuffers (c := c) hup (h.tidy s).offset (link.tasks s)
  simp only [Link.writeAll, Link.step, Link.setTask_ends, Link.setEnd_ends_self, hown]
  exact ⟨by simp, by simp⟩

theorem step_round_other : (link.step c m (.round s)).ends s.other = link.ends s.other := by
  simp [Link.step]

theorem step_receive_other (count : Nat) :
    (link.step c m (.receive s count)).ends s.other = link.ends s.other := by
  rw [Link.step]
  cases (link.tasks s).reads with
  | none => rfl
  | some pauseRead => simp [Link.read]

/-- The other end does nothing in a turn. -/
theorem turn_other : (link.turn c m s).ends s.other = link.ends s.other := by
  rw [Link.turn, step_receive_other, step_round_other, writeAll_other]

theorem turns_other (n : Nat) : ((Link.turn c m s)^[n] link).ends s.other = link.ends s.other := by
  induction n generalizing link with
  | zero => rfl
  | succ n ih => exact ih.trans turn_other

/-- A write after the task has come round is not too early. -/
theorem writeAll_backed {t : Side} (h : (link.ends s).Backed (link.tasks s)) :
    ((link.writeAll c m t).ends s).Backed ((link.writeAll c m t).tasks s) := by
  refine step_backed (step_backed h ?_) ?_
  · exact not_false
  · rintro ⟨rfl, -, hpauses⟩
    rw [Link.step, Link.setTask_tasks_self] at hpauses
    cases hpauses

/-- In a turn the end does not write too early, either. -/
theorem turn_backed (h : (link.ends s).Backed (link.tasks s)) :
    ((link.turn c m s).ends s).Backed ((link.turn c m s).tasks s) := by
  refine step_backed (step_backed (writeAll_backed h) ?_) ?_
  · exact not_false
  · exact not_false

/-- The next bytes have been read, for the end is not paused once it has written all it has. -/
theorem turn_wire (h : Good c m link) (hbacked : (link.ends s).Backed (link.tasks s))
    (hup : (link.ends s).down = none) :
    (link.turn c m s).wire s = (link.wire s).drop readBufferLength := by
  have hpaused : ((link.writeAll c m s).ends s).readPaused = false := by
    rw [(writeAll_spec h hup).1]
    by_contra hpaused
    rw [Bool.not_eq_false] at hpaused
    obtain ⟨hpaused, hnil⟩ := Bool.and_eq_true_iff.mp hpaused
    exact hbacked (Bool.or_eq_true_iff.mp hpaused) (List.isEmpty_iff.mp hnil)
  have hpauses : ((link.writeAll c m s).tasks s).pauses = false := by
    simp [Link.writeAll, Link.step, scheduleRead, ReadTask.pauses]
  have htask : ((link.writeAll c m s).step c m (.round s)).tasks s = .waiting true := by
    simp [Link.step, scheduleRead, hpaused, hpauses]
  rw [Link.turn, Link.step, htask]
  simp [Link.read, Link.step, writeAll_wire, ReadTask.reads]

/-- **With every turn the next bytes are read**, as long as the end is up. -/
theorem turns_wire (hc : c.Lawful) (hm : ∀ s, (m s).Fits) (h : Good c m link)
    (hbacked : (link.ends s).Backed (link.tasks s)) {n : Nat}
    (hup : (((Link.turn c m s)^[n] link).ends s).down = none) :
    ((Link.turn c m s)^[n] link).wire s = (link.wire s).drop (n * readBufferLength) := by
  induction n generalizing link with
  | zero => rw [Nat.zero_mul, List.drop_zero]; rfl
  | succ n ih =>
    have hturn : link.Leads c m (link.turn c m s) := (Link.Leads.refl link).turn s
    have hlast : link.Leads c m ((Link.turn c m s)^[n] (link.turn c m s)) := hturn.turns s n
    rw [Function.iterate_succ_apply] at hup ⊢
    rw [ih (hturn.good hc hm h) (turn_backed hbacked) hup, turn_wire h hbacked (hlast.up hup),
      List.drop_drop, Nat.succ_mul, Nat.add_comm]

/-- **The other end has written all it has**, and the one, if it is not paused without a reason, has
read it unless it is down. -/
theorem flushed_spec (hc : c.Lawful) (hm : ∀ s, (m s).Fits) (h : Good c m link)
    (hup : (link.ends s.other).down = none) :
    (link.flushed c m s).ends s.other = (link.ends s.other).written (link.tasks s.other) ∧
      ((link.ends s).Backed (link.tasks s) → ((link.flushed c m s).ends s).down = none →
        (link.flushed c m s).wire s = []) := by
  have hwrite : link.Leads c m (link.writeAll c m s.other) :=
    (Link.Leads.refl link).writeAll s.other
  refine ⟨(turns_other _).trans (writeAll_spec h hup).1, fun hbacked hup' => ?_⟩
  rw [Link.flushed, turns_wire hc hm (hwrite.good hc hm h) (writeAll_backed hbacked) hup']
  refine List.drop_eq_nil_of_le ?_
  rw [readBufferLength]
  omega

end Turns

/-- What holds after a flush if the end that reads is not paused without a reason: nothing is to
come for it. -/
theorem coming_flushed (hc : c.Lawful) (hm : ∀ s, (m s).Fits) {link last : Link Sk Pk H}
    (h : Good c m link) {s : Side} (hbacked : (link.ends s).Backed (link.tasks s))
    (hlast : last = link.flushed c m s) (hup : ∀ t, (last.ends t).down = none) :
    (last.view s).coming = [] := by
  have hleads : link.Leads c m last := hlast ▸ (Link.Leads.refl link).flushed s
  obtain ⟨hother, hwire⟩ := flushed_spec hc hm h (hleads.up (hup s.other))
  rw [← hlast] at hother hwire
  refine ((hleads.good hc hm h).idle hc (hup s) (hwire hbacked (hup s)) ?_).1
  rw [hother]
  rfl

/-! ## Ends at rest -/

/-- A stream of nothing is the stream of no messages. -/
theorem Stream.of_nil {isHeader : Bool} {need : Nat} {s r : CipherState} {msgs : List Bytes}
    (hc : c.Lawful) (h : Stream c isHeader need [] s r msgs) : msgs = [] ∧ s = r := by
  rcases h.inversion with ⟨-, -, hbytes, hsend⟩ | ⟨r', msg, msgs', -, -, -, -, hbytes, -⟩
  · cases msgs with
    | nil => exact ⟨rfl, hsend⟩
    | cons msg msgs =>
      have hheader := length_header hc r msg
      have hlen := congrArg List.length hbytes
      simp only [sealAll, List.length_append, List.length_nil] at hlen
      omega
  · have hbody := length_body hc r' msg
    have hlen := congrArg List.length hbytes
    simp only [List.length_append, List.length_nil] at hlen
    omega

theorem firstAct_ne_nil (hc : c.Lawful) : firstAct c m ≠ [] := by
  have hact : (firstAct c m).length = 50 := length_actOne _ _ hc
  exact List.ne_nil_of_length_pos (by omega)

theorem secondAct_ne_nil (hc : c.Lawful) : secondAct c m ≠ [] := by
  have hact : (secondAct c m).length = 50 := length_actTwo _ _ _ hc
  exact List.ne_nil_of_length_pos (by omega)

theorem thirdAct_ne_nil (hc : c.Lawful) : thirdAct c m ≠ [] := by
  have hact : (thirdAct c m).length = 66 := length_actThree _ _ _ _ hc
  exact List.ne_nil_of_length_pos (by omega)

section Stages
variable {v : Side → Port Sk Pk} (hc : c.Lawful)
include hc

theorem StageOne.inn_waits (h : StageOne c m v) (hup : (v .inn).down = none) :
    (v .inn).coming ≠ [] := by
  rw [(h.inn_reads hup).2]
  exact firstAct_ne_nil hc

theorem StageTwo.out_waits (h : StageTwo c m v) (hup : (v .out).down = none) :
    (v .out).coming ≠ [] := by
  rw [(h.out_reads hup).2]
  exact secondAct_ne_nil hc

theorem StageThree.inn_waits (h : StageThree c m v) (hup : (v .inn).down = none) :
    (v .inn).coming ≠ [] := by
  rw [(h.inn_reads hup).2]
  exact List.append_ne_nil_of_left_ne_nil (thirdAct_ne_nil hc) _

/-- **Two ends with nothing to read have finished the handshake**, and have read all. -/
theorem Inv.at_rest (h : Inv c m v) (hup : ∀ s, (v s).down = none)
    (hcoming : ∀ s, (v s).coming = []) :
    ∃ send, StageOpen c m v send (fun s => send s.other) fun _ => [] := by
  cases h with
  | one h => exact absurd (hcoming .inn) (h.inn_waits hc (hup .inn))
  | two h => exact absurd (hcoming .out) (h.out_waits hc (hup .out))
  | three h => exact absurd (hcoming .inn) (h.inn_waits hc (hup .inn))
  | opened send receive msgs h =>
    have hrest : ∀ s, msgs s = [] ∧ send s.other = receive s := by
      intro s
      have hstream := h.stream s (hup s)
      rw [hcoming s] at hstream
      exact hstream.of_nil hc
    obtain rfl : (fun s => send s.other) = receive := funext fun s => (hrest s).2
    obtain rfl : msgs = fun _ => [] := funext fun s => (hrest s).1
    exact ⟨send, h⟩

/-! ## The handshake completes -/

/-- Once the first act has been read, the end it was for has begun. -/
theorem Inv.inn_begun (h : Inv c m v) (hup : (v .inn).down = none)
    (hcoming : (v .inn).coming = []) : (v .inn).encryptor.getNoiseStep ≠ .actOne := by
  cases h with
  | one h => exact absurd hcoming (h.inn_waits hc hup)
  | two h =>
    rw [h.inn_encryptor]
    exact nofun
  | three h => exact absurd hcoming (h.inn_waits hc hup)
  | opened send receive msgs h =>
    rw [h.encryptor .inn]
    exact nofun

/-- Once the second has been, the end that connects is done. -/
theorem Inv.out_ready (h : Inv c m v) (hbegun : (v .inn).encryptor.getNoiseStep ≠ .actOne)
    (hup : (v .out).down = none) (hcoming : (v .out).coming = []) :
    (v .out).encryptor.isReadyForEncryption = true := by
  cases h with
  | one h =>
    rw [h.inn_encryptor] at hbegun
    exact absurd rfl hbegun
  | two h => exact absurd hcoming (h.out_waits hc hup)
  | three h =>
    rw [h.out_encryptor]
    rfl
  | opened send receive msgs h =>
    rw [h.encryptor .out]
    rfl

/-- Once the third has been, so is the other. -/
theorem Inv.inn_ready (h : Inv c m v) (hready : (v .out).encryptor.isReadyForEncryption = true)
    (hup : (v .inn).down = none) (hcoming : (v .inn).coming = []) :
    (v .inn).encryptor.isReadyForEncryption = true := by
  cases h with
  | one h =>
    rw [h.out_encryptor] at hready
    cases hready
  | two h =>
    rw [h.out_encryptor] at hready
    cases hready
  | three h => exact absurd hcoming (h.inn_waits hc hup)
  | opened send receive msgs h =>
    rw [h.encryptor .inn]
    rfl

end Stages

/-- Two ends that have finished know each other. -/
theorem StageOpen.known {v : Side → Port Sk Pk} {send receive : Side → CipherState}
    {msgs : Side → List Bytes} (h : StageOpen c m v send receive msgs) {s : Side}
    (hup : (v s).down = none) : (v s).theirNodeId = some (nodeIdOf c m s.other) := by
  rcases h.knows s with hid | ⟨-, hdown⟩
  · exact hid
  · exact absurd hup hdown

/-- An end that is ready knows the other. -/
theorem Inv.knows_of_ready {v : Side → Port Sk Pk} (h : Inv c m v) {s : Side}
    (hup : (v s).down = none) (hready : (v s).encryptor.isReadyForEncryption = true) :
    (v s).theirNodeId = some (nodeIdOf c m s.other) := by
  obtain ⟨nodeId, send, receive, hfin⟩ := exists_finished hready
  rcases h.nodeId s with hnone | hsome
  · have hknown := h.known hup hfin
    rw [hnone] at hknown
    cases hknown
  · exact hsome

/-- After a flush an end has finished the handshake or has read all there was: if it has not
finished, it is not paused without a reason. -/
theorem ready_or_read (hc : c.Lawful) (hm : ∀ s, (m s).Fits) {link last : Link Sk Pk H}
    (h : Good c m link) {s : Side} (hcalm : (link.ends s).Calm (link.tasks s))
    (hlast : last = link.flushed c m s) (hup : ∀ t, (last.ends t).down = none) :
    Ready (last.ends s) ∨ (last.view s).coming = [] := by
  by_cases hready : Ready (link.ends s)
  · have hleads : link.Leads c m last := hlast ▸ (Link.Leads.refl link).flushed s
    exact .inl (hleads.ready hready)
  · exact .inr (coming_flushed hc hm h (hcalm.backed hready) hlast hup)

/-- Three flushes take the handshake to its end. -/
theorem ready_of_flushed (hc : c.Lawful) (hm : ∀ s, (m s).Fits) {link one two three : Link Sk Pk H}
    (h : Good c m link) (hcalm : ∀ s, (link.ends s).Calm (link.tasks s))
    (hone : one = link.flushed c m .inn) (htwo : two = one.flushed c m .out)
    (hthree : three = two.flushed c m .inn) (hup : ∀ s, (three.ends s).down = none) (s : Side) :
    Ready (three.ends s) := by
  have hleads₁ : link.Leads c m one := hone ▸ (Link.Leads.refl link).flushed .inn
  have hleads₂ : one.Leads c m two := htwo ▸ (Link.Leads.refl one).flushed .out
  have hleads₃ : two.Leads c m three := hthree ▸ (Link.Leads.refl two).flushed .inn
  have hup₂ : ∀ s, (two.ends s).down = none := fun s => hleads₃.up (hup s)
  have hup₁ : ∀ s, (one.ends s).down = none := fun s => hleads₂.up (hup₂ s)
  have hgood₁ := hleads₁.good hc hm h
  have hgood₂ := hleads₂.good hc hm hgood₁
  have hcalm₁ : ∀ s, (one.ends s).Calm (one.tasks s) := fun s => hleads₁.calm (hcalm s)
  have hcalm₂ : ∀ s, (two.ends s).Calm (two.tasks s) := fun s => hleads₂.calm (hcalm₁ s)
  -- the first act has been read
  have hbegun₁ : (one.ends .inn).peer.channelEncryptor.getNoiseStep ≠ .actOne := by
    rcases ready_or_read hc hm h (hcalm .inn) hone hup₁ with hready | hcoming
    · exact fun hstep => not_ready hstep (by simp) hready
    · exact hgood₁.inv.inn_begun hc (hup₁ .inn) hcoming
  -- and the end it was for has only written since
  have hbegun₂ : (two.ends .inn).peer.channelEncryptor.getNoiseStep ≠ .actOne := by
    have hother := (flushed_spec hc hm (s := .out) hgood₁ (hup₁ .inn)).1
    rw [← htwo] at hother
    have hinn : two.ends .inn = _ := hother
    rw [hinn]
    exact hbegun₁
  -- then the second
  have hout : Ready (two.ends .out) := by
    rcases ready_or_read hc hm hgood₁ (hcalm₁ .out) htwo hup₂ with hready | hcoming
    · exact hready
    · exact hgood₂.inv.out_ready hc hbegun₂ (hup₂ .out) hcoming
  -- and the third
  cases s with
  | out => exact hleads₃.ready hout
  | inn =>
    rcases ready_or_read hc hm hgood₂ (hcalm₂ .inn) hthree hup with hready | hcoming
    · exact hready
    · exact (hleads₃.good hc hm hgood₂).inv.inn_ready hc (hleads₃.ready hout) (hup .inn) hcoming

/-- What every run of two nodes that are connected leads to. -/
theorem connect_run (hc : c.Lawful) (hm : ∀ s, (m s).Fits) (nodes : Side → H) :
    ∃ start, connect c m nodes = .ok start ∧ (∀ s, (start.ends s).Backed (start.tasks s)) ∧
      ∀ actions : List Action, (∀ action ∈ actions, action.Fits) →
        Good c m (start.run c m actions) ∧
          ∀ s, ((start.run c m actions).ends s).Calm ((start.run c m actions).tasks s) := by
  obtain ⟨start, hstart, hgood⟩ := connect_good (c := c) (m := m) nodes
  refine ⟨start, hstart, fun s => (connect_calm hstart s).1, fun actions hfits => ?_⟩
  have hleads : start.Leads c m (start.run c m actions) := ⟨actions, hfits, rfl⟩
  exact ⟨hleads.good hc hm hgood, fun s => hleads.calm (connect_calm hstart s).2⟩

/-- **The handshake completes**: wherever a run of two nodes that are connected has come to, once
the sockets have taken in turn what the two ends have to write, and that has arrived three times,
both are ready to send and know each other by their node ids, unless one has ended the
connection. -/
theorem handshake_completes (hc : c.Lawful) (hm : ∀ s, (m s).Fits) (nodes : Side → H)
    {actions : List Action} (hfits : ∀ action ∈ actions, action.Fits) :
    ∃ start, connect c m nodes = .ok start ∧ ∀ last,
      last = (((start.run c m actions).flushed c m .inn).flushed c m .out).flushed c m .inn →
      (∀ s, (last.ends s).down = none) →
      ∀ s, (last.ends s).peer.channelEncryptor.isReadyForEncryption = true ∧
        (last.ends s).peer.theirNodeId = some (nodeIdOf c m s.other) := by
  obtain ⟨start, hstart, -, hrun⟩ := connect_run hc hm nodes
  refine ⟨start, hstart, fun last hlast hup s => ?_⟩
  obtain ⟨hgood, hcalm⟩ := hrun actions hfits
  have hready := ready_of_flushed hc hm hgood hcalm rfl rfl hlast hup s
  have hleads : (start.run c m actions).Leads c m last :=
    hlast ▸ (((Link.Leads.refl _).flushed .inn).flushed .out).flushed .inn
  exact ⟨hready, (hleads.good hc hm hgood).inv.knows_of_ready (s := s) (hup s) hready⟩

/-- From where the socket of one end has refused most of the second act, so that the end does not
read. -/
theorem handshake_completes_toy : ∃ start, connect toyNoise toyManagers (fun _ => 0) = .ok start ∧
    ∀ last, last = (((start.run toyNoise toyManagers (toyActions.take 5)).flushed toyNoise
        toyManagers .inn).flushed toyNoise toyManagers .out).flushed toyNoise toyManagers .inn →
      ∀ s, (last.ends s).peer.channelEncryptor.isReadyForEncryption = true ∧
        (last.ends s).peer.theirNodeId = some (nodeIdOf toyNoise toyManagers s.other) := by
  obtain ⟨start, hstart, hdone⟩ := handshake_completes (m := toyManagers) toyNoise_lawful
    toyManagers_fits (fun _ => 0) fun action hmem =>
      toyActions_fits action (List.mem_of_mem_take (i := 5) hmem)
  refine ⟨start, hstart, fun last hlast => hdone last hlast fun s => ?_⟩
  have hup : (connect toyNoise toyManagers fun _ => 0).toOption.map (fun start =>
      (((((start.run toyNoise toyManagers (toyActions.take 5)).flushed toyNoise
        toyManagers .inn).flushed toyNoise toyManagers .out).flushed toyNoise
          toyManagers .inn).ends s).down) = some none := by
    cases s <;> decide +kernel
  rw [hstart] at hup
  rw [hlast]
  exact Option.some.inj hup

/-! ## When a connection goes on -/

section GoesOn
variable (hc : c.Lawful) (hm : ∀ s, (m s).Fits) {link last : Link Sk Pk H} (h : Good c m link)
  {s : Side}
include hc h

include hm in
/-- Once the sockets take what the ends have, the one end has written all and the other has read
it. -/
theorem Good.flushed_handed (hbacked : (link.ends s).Backed (link.tasks s))
    (hup : (link.ends s.other).down = none) (hlast : last = link.flushed c m s) :
    (last.ends s.other).peer.pendingOutboundBuffer = [] ∧
      ((last.ends s).down = none →
        last.wire s = [] ∧ (last.ends s).handed = (link.ends s.other).queued) := by
  have hleads : link.Leads c m last := hlast ▸ (Link.Leads.refl link).flushed s
  obtain ⟨hother, hwire⟩ := flushed_spec hc hm h hup
  rw [← hlast] at hother hwire
  refine ⟨by rw [hother]; rfl, fun hup' => ⟨hwire hbacked hup', ?_⟩⟩
  rw [((hleads.good hc hm h).idle hc hup' (hwire hbacked hup') (by rw [hother]; rfl)).2, hother]
  rfl

/-- With nothing left to write or on the way, the handshake is done and all has been read. -/
theorem Good.at_rest (hrest : ∀ s, (link.ends s).down = none ∧ link.wire s = [] ∧
    (link.ends s).peer.pendingOutboundBuffer = []) :
    ∃ send : Side → CipherState, ∀ s,
      (link.ends s).peer.channelEncryptor =
        ⟨some (nodeIdOf c m s.other), .finished (send s) (send s.other)⟩ ∧
      (link.ends s).peer.theirNodeId = some (nodeIdOf c m s.other) ∧
      (link.ends s).handed = (link.ends s.other).queued := by
  have hunsent : ∀ s, (link.ends s).unsent = [] := fun s => by
    rw [Connection.unsent, (hrest s).2.2]
    rfl
  have hcoming : ∀ s, (link.view s).coming = [] := fun s =>
    (h.idle hc (hrest s).1 (hrest s).2.1 (hunsent s.other)).1
  obtain ⟨send, hopen⟩ := h.inv.at_rest hc (fun s => (hrest s).1) hcoming
  refine ⟨send, fun s => ⟨hopen.encryptor s, hopen.known (hrest s).1, ?_⟩⟩
  have hqueued := hopen.queued s
  rw [List.append_nil] at hqueued
  exact hqueued.symm

end GoesOn

/-- **A connection goes on** as long as its ends are not paused without a reason.  In any run of two
nodes that are connected, an end is so only if it has written after it was found that reading is to
be paused, and before that was recorded.  If it is not, then whatever the sockets have refused so
far: once they take what the two ends have, the other has written all, and this one, unless it ends
the connection, has read all that was queued for it.  If it is, it reads nothing from when its task
has come round until it has a message for the peer; then it is not any more.  When there is nothing
left to write or on the way between two ends that are up, the handshake is done and both have the
same keys, each knows the other by its node id and has read all the other has queued. -/
theorem connection_goes_on (hc : c.Lawful) (hm : ∀ s, (m s).Fits) (nodes : Side → H)
    {actions : List Action} (hfits : ∀ action ∈ actions, action.Fits) :
    ∃ start, connect c m nodes = .ok start ∧ ∀ link, link = start.run c m actions →
      (∀ s, (start.NeverLate c m s actions → (link.ends s).Backed (link.tasks s)) ∧
        ((link.ends s).Backed (link.tasks s) → (link.ends s.other).down = none →
          ∀ last, last = link.flushed c m s →
            (last.ends s.other).peer.pendingOutboundBuffer = [] ∧
            ((last.ends s).down = none →
              last.wire s = [] ∧ (last.ends s).handed = (link.ends s.other).queued)) ∧
        (¬(link.ends s).Backed (link.tasks s) →
          ∀ later : List Action, (∀ message, .own s (.send message) ∉ later) →
            (((link.step c m (.round s)).run c m later).ends s).handed = (link.ends s).handed) ∧
        ((link.ends s).down = none → Ready (link.ends s) → ∀ message : WireMessage, message.Fits →
          ((link.step c m (.own s (.send message))).ends s).Backed
            ((link.step c m (.own s (.send message))).tasks s))) ∧
      ((∀ s, (link.ends s).down = none ∧ link.wire s = [] ∧
          (link.ends s).peer.pendingOutboundBuffer = []) →
        ∃ send : Side → CipherState, ∀ s,
          (link.ends s).peer.channelEncryptor =
            ⟨some (nodeIdOf c m s.other), .finished (send s) (send s.other)⟩ ∧
          (link.ends s).peer.theirNodeId = some (nodeIdOf c m s.other) ∧
          (link.ends s).handed = (link.ends s.other).queued) := by
  obtain ⟨start, hstart, hbacked, hrun⟩ := connect_run hc hm nodes
  refine ⟨start, hstart, fun link hlink => ?_⟩
  have hgood : Good c m link := hlink ▸ (hrun actions hfits).1
  refine ⟨fun s => ⟨fun hlate => ?_, fun hback hup last hlast => ?_, fun hnot later hsend => ?_,
    fun hup hready message hmessage => ?_⟩, hgood.at_rest hc⟩
  · rw [hlink]
    exact run_backed (hbacked s) hlate
  · exact hgood.flushed_handed hc hm hback hup hlast
  · have hstalled := stalled_of_not_backed hnot
    have hround : (link.step c m (.round s)).ends s =
        (scheduleRead (link.ends s) (link.tasks s)).1 := by simp [Link.step]
    have htask : (link.step c m (.round s)).tasks s =
        (scheduleRead (link.ends s) (link.tasks s)).2 := by simp [Link.step]
    rw [← hround, ← htask] at hstalled
    rw [run_stalled hstalled hsend, hround]
    rfl
  · have hid := hgood.inv.knows_of_ready (s := s) hup hready
    have hid' : (link.ends s).peer.theirNodeId = _ := hid
    exact step_send_backed hup hready (by rw [hid']; rfl) hmessage

/-- The end that was connected to queues eleven pings, and reads one more before any is written.
Before the pause for that is recorded, all is written. -/
def toyLate : List Action :=
  List.replicate 11 (.own .inn (.send toyPing)) ++
    [.own .out (.send toyPing), .own .out (.processEvents [36]), .round .inn,
      .receive .inn 36, .own .inn (.processEvents (List.replicate 12 36))]

theorem toyLate_fits : ∀ action ∈ toyActions ++ toyLate, action.Fits := by
  refine List.forall_mem_append.mpr ⟨toyActions_fits, ?_⟩
  simp [toyLate, toyPing, Action.Fits, OwnEvent.Fits, WireMessage.Fits, lnMaxMsgLen]

/-- After the ping and the pong all is at rest.  After `toyLate` the end that was connected to reads
nothing more until it has a message; the other reads on. -/
theorem connection_goes_on_late :
    ∃ start, connect toyNoise toyManagers (fun _ => 0) = .ok start ∧
      (∀ link, link = start.run toyNoise toyManagers toyActions →
        (∀ s, (link.ends s).Backed (link.tasks s)) ∧
        ∃ send : Side → CipherState, ∀ s,
          (link.ends s).peer.channelEncryptor =
            ⟨some (nodeIdOf toyNoise toyManagers s.other), .finished (send s) (send s.other)⟩ ∧
          (link.ends s).peer.theirNodeId = some (nodeIdOf toyNoise toyManagers s.other) ∧
          (link.ends s).handed = (link.ends s.other).queued) ∧
      ∀ link, link = start.run toyNoise toyManagers (toyActions ++ toyLate) →
        (∀ later : List Action, (∀ message, .own .inn (.send message) ∉ later) →
          (((link.step toyNoise toyManagers (.round .inn)).run toyNoise toyManagers later).ends
            .inn).handed = (link.ends .inn).handed) ∧
        (∀ message : WireMessage, message.Fits →
          ((link.step toyNoise toyManagers (.own .inn (.send message))).ends .inn).Backed
            ((link.step toyNoise toyManagers (.own .inn (.send message))).tasks .inn)) ∧
        ∀ last, last = link.flushed toyNoise toyManagers .out →
          last.wire .out = [] ∧ (last.ends .out).handed = (link.ends .inn).queued := by
  obtain ⟨start, hstart, hlinks⟩ := connection_goes_on (m := toyManagers) toyNoise_lawful
    toyManagers_fits (fun _ => 0) toyActions_fits
  obtain ⟨start', hstart', hlate⟩ := connection_goes_on (m := toyManagers) toyNoise_lawful
    toyManagers_fits (fun _ => 0) toyLate_fits
  obtain rfl : start = start' := Except.ok.inj (hstart.symm.trans hstart')
  have hnever : ∀ s, (connect toyNoise toyManagers fun _ => 0).toOption.map (fun start =>
      decide (start.NeverLate toyNoise toyManagers s toyActions)) = some true := by
    intro s
    cases s <;> decide +kernel
  have hrest : ∀ s, (connect toyNoise toyManagers fun _ => 0).toOption.map (fun start =>
      (((start.run toyNoise toyManagers toyActions).ends s).down,
        (start.run toyNoise toyManagers toyActions).wire s,
        ((start.run toyNoise toyManagers toyActions).ends s).peer.pendingOutboundBuffer)) =
          some (none, [], []) := by
    intro s
    cases s <;> decide +kernel
  have hpaused : (connect toyNoise toyManagers fun _ => 0).toOption.map (fun start =>
      let link := start.run toyNoise toyManagers (toyActions ++ toyLate)
      (decide ((link.ends .inn).Backed (link.tasks .inn)),
        decide ((link.ends .out).Backed (link.tasks .out)), (link.ends .inn).down,
        (link.ends .inn).peer.channelEncryptor.isReadyForEncryption,
        ((link.flushed toyNoise toyManagers .out).ends .out).down)) =
          some (false, true, none, true, none) := by
    decide +kernel
  rw [hstart] at hnever hrest hpaused
  simp only [Except.toOption, Option.map_some, Option.some.injEq, Prod.mk.injEq,
    decide_eq_true_eq, decide_eq_false_iff_not] at hnever hrest hpaused
  refine ⟨start, hstart, fun link hlink => ?_, fun link hlink => ?_⟩
  · obtain ⟨hends, hall⟩ := hlinks link hlink
    exact ⟨fun s => (hends s).1 (hnever s), hall (hlink ▸ hrest)⟩
  · obtain ⟨hinn, hout, hup, hready, hlast⟩ := hlink ▸ hpaused
    have hends := (hlate link hlink).1
    refine ⟨(hends .inn).2.2.1 hinn, (hends .inn).2.2.2 hup hready, fun last heq => ?_⟩
    exact ((hends .out).2.1 hout hup last heq).2 (heq ▸ hlast)

end Noise
end HiddenLightning
