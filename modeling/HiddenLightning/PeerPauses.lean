import HiddenLightning.HostilePeers
import HiddenLightning.PeerLink

/-! # When an end does not read

An end does not always read: while its own socket refuses what it writes, or much is queued, it
leaves what arrives on the way.

Reading is resumed when buffers are written.  So it should be paused only while there is something
to write (`Backed`).  But `schedule_read` records the pause that a read event asks for after the
event, and everything may have been written in between (`WritesLate`); then the end reads nothing
until the node has another message for the peer.  Nothing else breaks it (`EndStep.backed`), and
before the handshake is done not even that, for too little is queued then (`Calm`). -/
namespace HiddenLightning
namespace Noise
open KeyStreams FrameBuffers

variable {Sk Pk H : Type} {c : NoiseCrypto Sk Pk} {m : Side → PeerManager Sk Pk H}

/-! ## What adds to the queue -/

/-- Nothing has been taken from the queue, reading goes on or not as before, and the handshake is
not undone. -/
structure Connection.Grows (conn next : Connection Sk Pk H) : Prop where
  queue : conn.peer.pendingOutboundBuffer <+: next.peer.pendingOutboundBuffer
  readPaused : next.readPaused = conn.readPaused
  ready : Ready conn → Ready next

theorem Connection.Grows.refl (conn : Connection Sk Pk H) : conn.Grows conn :=
  ⟨List.prefix_refl _, rfl, id⟩

theorem Connection.Grows.ne_nil {conn next : Connection Sk Pk H} (h : conn.Grows next)
    (hne : conn.peer.pendingOutboundBuffer ≠ []) : next.peer.pendingOutboundBuffer ≠ [] := by
  intro hnil
  have hqueue := h.queue
  rw [hnil, List.prefix_nil] at hqueue
  exact hne hqueue

/-- A connection that is ready waits for no act. -/
theorem noiseComplete_of_ready {conn : Connection Sk Pk H} (h : Ready conn) :
    conn.peer.channelEncryptor.getNoiseStep = .noiseComplete := by
  obtain ⟨nodeId, s, r, hfin⟩ := exists_finished h
  rw [hfin]
  rfl

theorem ready_of_noiseComplete {conn : Connection Sk Pk H}
    (h : conn.peer.channelEncryptor.getNoiseStep = .noiseComplete) : Ready conn := by
  rw [PeerChannelEncryptor.getNoiseStep] at h
  rw [Ready, PeerChannelEncryptor.isReadyForEncryption]
  split at h
  case h_4 hstate => rw [hstate]
  all_goals cases h

/-- A connection that waits for an act is not ready. -/
theorem not_ready {conn : Connection Sk Pk H} {step : NextNoiseStep}
    (h : conn.peer.channelEncryptor.getNoiseStep = step) (hstep : step ≠ .noiseComplete) :
    ¬Ready conn := fun hready => hstep (h.symm.trans (noiseComplete_of_ready hready))

section Reading
variable (c) (manager : PeerManager Sk Pk H) {conn now : Connection Sk Pk H} (h : conn.Grows now)
include h

theorem Connection.Grows.stop (reason : Stop) : conn.Grows (now.stop reason) :=
  ⟨h.queue, h.readPaused, h.ready⟩

/-- A message is queued behind the others. -/
theorem Connection.Grows.enqueueMessage (message : WireMessage) :
    conn.Grows (Noise.enqueueMessage c now message) := by
  rw [Noise.enqueueMessage]
  split
  case isTrue => exact h
  case isFalse =>
    dsimp only
    split
    case isTrue => exact ⟨h.queue, h.readPaused, h.ready⟩
    case isFalse =>
      split
      case h_1 => exact ⟨h.queue, h.readPaused, h.ready⟩
      case h_2 encryptor buffer henc =>
        refine ⟨h.queue.trans (List.prefix_append _ _), h.readPaused, fun _ => ?_⟩
        exact encryptMessage_ok c henc

theorem Connection.Grows.replies (replies : List WireMessage) :
    conn.Grows (replies.foldl (Noise.enqueueMessage c) now) := by
  induction replies generalizing now with
  | nil => exact h
  | cons reply replies ih => exact ih (h.enqueueMessage c reply)

theorem Connection.Grows.finishHandshake (theirNodeId : Pk) :
    conn.Grows (Noise.finishHandshake c manager now theirNodeId) := by
  rw [Noise.finishHandshake]
  split
  · exact ⟨h.queue, h.readPaused, h.ready⟩
  · refine .enqueueMessage c ?_ _
    exact ⟨h.queue, h.readPaused, h.ready⟩

theorem Connection.Grows.onMessage (message : Bytes) :
    conn.Grows (Noise.onMessage c manager now message) := by
  rw [Noise.onMessage]
  split
  · exact ⟨h.queue, h.readPaused, h.ready⟩
  · refine .replies c ?_ _
    exact ⟨h.queue, h.readPaused, h.ready⟩

/-- Whatever frame it is, its answers are queued behind the others. -/
theorem Connection.Grows.onFrame : conn.Grows (Noise.onFrame c manager now) := by
  rw [Noise.onFrame]
  split
  case h_1 hstep =>
    have hnot := not_ready hstep (by simp)
    split
    · exact h.stop _
    · exact ⟨h.queue.trans (List.prefix_append _ _), h.readPaused,
        fun hready => absurd (h.ready hready) hnot⟩
  case h_2 hstep =>
    have hnot := not_ready hstep (by simp)
    split
    · exact h.stop _
    · refine .finishHandshake c manager ?_ _
      exact ⟨h.queue.trans (List.prefix_append _ _), h.readPaused,
        fun hready => absurd (h.ready hready) hnot⟩
  case h_3 hstep =>
    have hnot := not_ready hstep (by simp)
    split
    · exact h.stop _
    · refine .finishHandshake c manager ?_ _
      exact ⟨h.queue, h.readPaused, fun hready => absurd (h.ready hready) hnot⟩
  case h_4 =>
    split
    · split
      case h_1 => exact h.stop _
      case h_2 encryptor msgLen hres =>
        split
        · exact h.stop _
        · refine ⟨h.queue, h.readPaused, fun hready => ?_⟩
          obtain ⟨nodeId, s, r, hfin⟩ := exists_finished (h.ready hready)
          obtain ⟨-, r', rfl⟩ := decryptLengthHeader_ok c (hfin ▸ hres)
          rfl
    · split
      case h_1 => exact h.stop _
      case h_2 encryptor msgData hres =>
        split
        · exact h.stop _
        · refine .onMessage c manager ?_ _
          refine ⟨h.queue, h.readPaused, fun hready => ?_⟩
          obtain ⟨nodeId, s, r, hfin⟩ := exists_finished (h.ready hready)
          exact (decryptMessage_ok c (hfin ▸ hres)).2

/-- And so with any piece of a frame. -/
theorem Connection.Grows.readPiece (piece : Bytes) :
    conn.Grows (Noise.readPiece c manager now piece) := by
  rw [Noise.readPiece]
  split
  · exact h
  · split
    · exact h.stop _
    · split
      · refine .onFrame c manager ?_
        exact ⟨h.queue, h.readPaused, h.ready⟩
      · exact ⟨h.queue, h.readPaused, h.ready⟩

end Reading

/-! ## When reading is paused -/

/-- Reading is paused, or is to be, only while there is something to write. -/
def Connection.Backed (conn : Connection Sk Pk H) (task : ReadTask) : Prop :=
  conn.readPaused = true ∨ task.pauses = true → conn.peer.pendingOutboundBuffer ≠ []

instance (conn : Connection Sk Pk H) (task : ReadTask) : Decidable (conn.Backed task) :=
  inferInstanceAs (Decidable (_ ∨ _ → _ ≠ []))

/-- Who only adds to the queue does not take away the reason for a pause. -/
theorem Connection.Grows.backed {conn next : Connection Sk Pk H} {task : ReadTask}
    (h : conn.Grows next) (hbacked : conn.Backed task) : next.Backed task := fun hpaused =>
  h.ne_nil (hbacked (h.readPaused ▸ hpaused))

/-- `pause_read` is found over a long queue only. -/
theorem Peer.ne_nil_of_pausesRead {peer : Peer Sk Pk} (h : peer.pausesRead = true) :
    peer.pendingOutboundBuffer ≠ [] := by
  intro hnil
  rw [Peer.pausesRead, hnil] at h
  cases h

section Rounds
variable (c) (manager : PeerManager Sk Pk H)

/-- `pause_read` is found before the round or behind it, or is left as it was. -/
theorem readRound_snd (now : Connection Sk Pk H) (pauseRead : Bool) (piece : Bytes) :
    (readRound c manager (now, pauseRead) piece).2 =
        (readPiece c manager now piece).peer.pausesRead ∨
      (readRound c manager (now, pauseRead) piece).2 = now.peer.pausesRead ∨
      (readRound c manager (now, pauseRead) piece).2 = pauseRead := by
  rw [readRound]
  split
  case h_1 => exact .inl rfl
  case h_2 message _ _ =>
    cases manager.skips message with
    | true => exact .inr (.inr rfl)
    | false => exact .inr (.inl rfl)

/-- A round adds to the queue, and `pause_read` is found only if there is something in it. -/
theorem readRound_backed {now : Connection Sk Pk H} {pauseRead : Bool}
    (h : now.Backed (.reading pauseRead)) (piece : Bytes) :
    (readRound c manager (now, pauseRead) piece).1.Backed
      (.reading (readRound c manager (now, pauseRead) piece).2) := by
  have hnext := (Connection.Grows.refl now).readPiece c manager piece
  rw [readRound_fst]
  rintro (hpaused | hpauses)
  · exact hnext.ne_nil (h (.inl (hnext.readPaused ▸ hpaused)))
  · rw [ReadTask.pauses] at hpauses
    rcases readRound_snd c manager now pauseRead piece with hsnd | hsnd | hsnd
    · exact Peer.ne_nil_of_pausesRead (hsnd ▸ hpauses)
    · exact hnext.ne_nil (Peer.ne_nil_of_pausesRead (hsnd ▸ hpauses))
    · exact hnext.ne_nil (h (.inr (hsnd ▸ hpauses)))

/-- **A read event pauses reading only if there is something to write then.** -/
theorem readRounds_backed {conn : Connection Sk Pk H} {pauseRead : Bool}
    (h : conn.Backed (.reading pauseRead)) (data : Bytes) :
    (readRounds c manager (conn, pauseRead) data).1.Backed
      (.reading (readRounds c manager (conn, pauseRead) data).2) :=
  feed_keeps (P := fun state : Connection Sk Pk H × Bool => state.1.Backed (.reading state.2))
    (fun _ piece h => readRound_backed c manager h piece) h _ data

/-- A read event only adds to the queue. -/
theorem readRounds_grows (conn : Connection Sk Pk H) (pauseRead : Bool) (data : Bytes) :
    conn.Grows (readRounds c manager (conn, pauseRead) data).1 :=
  feed_keeps (P := fun state : Connection Sk Pk H × Bool => conn.Grows state.1)
    (fun state piece h => by
      rw [readRound_fst]
      exact h.readPiece c manager piece) (.refl conn) _ data

/-- An end that is down reads nothing. -/
theorem readRounds_down {conn : Connection Sk Pk H} (h : conn.down ≠ none) (pauseRead : Bool)
    (data : Bytes) : (readRounds c manager (conn, pauseRead) data).1 = conn :=
  feed_keeps (P := fun state : Connection Sk Pk H × Bool => state.1 = conn)
    (fun state piece heq => by rw [readRound_fst, heq, readPiece_down c manager h]) rfl _ data

end Rounds

/-- A read event begins without a pause, or goes on with the one that was found. -/
theorem ReadTask.pauses_of_reads {task : ReadTask} {pauseRead : Bool}
    (h : task.reads = some pauseRead) : pauseRead = task.pauses := by
  cases task with
  | waiting reads =>
    cases reads with
    | true =>
      cases h
      rfl
    | false => cases h
  | reading pauseRead' =>
    cases h
    rfl

theorem Connection.Backed.reading {conn : Connection Sk Pk H} {task : ReadTask}
    (h : conn.Backed task) {pauseRead : Bool} (hreads : task.reads = some pauseRead) :
    conn.Backed (.reading pauseRead) := by
  rw [ReadTask.pauses_of_reads hreads]
  exact h

/-! ## Writes -/

/-- Reading is resumed before the last buffer is taken. -/
theorem writeLoop_backed {readPaused : Bool} {queue : List Bytes}
    (h : readPaused = true → queue ≠ []) (offset : Nat) (answers : List Nat) :
    (writeLoop readPaused queue offset answers).readPaused = true →
      (writeLoop readPaused queue offset answers).queue ≠ [] := by
  induction queue generalizing readPaused offset answers with
  | nil => exact fun hpaused => absurd rfl (h hpaused)
  | cons nextBuff queue ih =>
    rw [writeLoop]
    split
    case isTrue =>
      refine ih (fun hpaused hnil => ?_) 0 answers.tail
      rw [hnil] at hpaused
      simp [outboundBufferLimitReadPause] at hpaused
    case isFalse => exact fun _ => List.cons_ne_nil _ _

/-- A write leaves an end of the queue. -/
theorem writeLoop_suffix (readPaused : Bool) (queue : List Bytes) (offset : Nat)
    (answers : List Nat) : (writeLoop readPaused queue offset answers).queue <:+ queue := by
  induction queue generalizing readPaused offset answers with
  | nil => exact List.suffix_refl _
  | cons nextBuff queue ih =>
    rw [writeLoop]
    split
    case isTrue => exact (ih _ 0 answers.tail).trans (List.suffix_cons _ _)
    case isFalse => exact List.suffix_refl _

/-- What a write leaves. -/
structure Connection.Shrinks (conn next : Connection Sk Pk H) : Prop where
  queue : next.peer.pendingOutboundBuffer <:+ conn.peer.pendingOutboundBuffer
  encryptor : next.peer.channelEncryptor = conn.peer.channelEncryptor
  backed : (conn.readPaused = true → conn.peer.pendingOutboundBuffer ≠ []) →
    next.readPaused = true → next.peer.pendingOutboundBuffer ≠ []

theorem Connection.Shrinks.refl (conn : Connection Sk Pk H) : conn.Shrinks conn :=
  ⟨List.suffix_refl _, rfl, id⟩

/-- A write only takes from the queue, and resumes reading before it takes the last buffer. -/
theorem doAttemptWriteData_shrinks (conn : Connection Sk Pk H) (answers : List Nat) :
    conn.Shrinks (doAttemptWriteData conn answers).1 := by
  rw [doAttemptWriteData]
  split
  case isTrue => exact .refl conn
  case isFalse =>
    exact ⟨writeLoop_suffix _ _ _ answers, rfl, fun h => writeLoop_backed h _ answers⟩

theorem writeBufferSpaceAvail_shrinks (conn : Connection Sk Pk H) (answers : List Nat) :
    conn.Shrinks (writeBufferSpaceAvail conn answers).1 := by
  have h := doAttemptWriteData_shrinks (conn.setAwaiting false) answers
  exact ⟨h.queue, h.encryptor, h.backed⟩

/-- The events in which a node writes. -/
def OwnEvent.writes : OwnEvent → Bool
  | .spaceAvail _ => true
  | .processEvents _ => true
  | _ => false

/-- What a node does by itself adds to the queue once the handshake is done, or takes from it. -/
theorem handleOwn_cases (conn : Connection Sk Pk H) (event : OwnEvent) :
    Ready conn ∧ conn.Grows (conn.handleOwn c event).1 ∨
      conn.Shrinks (conn.handleOwn c event).1 ∧
        (conn.Grows (conn.handleOwn c event).1 ∨ event.writes = true) := by
  cases event with
  | send message =>
    rw [Connection.handleOwn]
    split
    case isTrue hready =>
      exact .inl ⟨hready.2, (Connection.Grows.refl conn).enqueueMessage c message⟩
    case isFalse => exact .inr ⟨.refl conn, .inl (.refl conn)⟩
  | spaceAvail answers =>
    rw [Connection.handleOwn]
    split
    case isTrue => exact .inr ⟨writeBufferSpaceAvail_shrinks conn answers, .inr rfl⟩
    case isFalse => exact .inr ⟨.refl conn, .inl (.refl conn)⟩
  | processEvents answers =>
    rw [Connection.handleOwn]
    split
    case isTrue => exact .inr ⟨doAttemptWriteData_shrinks conn answers, .inr rfl⟩
    case isFalse => exact .inr ⟨.refl conn, .inl (.refl conn)⟩
  | close =>
    rw [Connection.handleOwn]
    split
    case isTrue =>
      have hgrows := (Connection.Grows.refl conn).stop .closed
      exact .inr ⟨⟨List.suffix_refl _, rfl, id⟩, .inl hgrows⟩
    case isFalse => exact .inr ⟨.refl conn, .inl (.refl conn)⟩

theorem handleOwn_down {conn : Connection Sk Pk H} (h : conn.down ≠ none) (event : OwnEvent) :
    (conn.handleOwn c event).1 = conn := by
  cases event with
  | send message => rw [Connection.handleOwn, if_neg fun hready => h hready.1]
  | spaceAvail answers => rw [Connection.handleOwn, if_neg h]
  | processEvents answers => rw [Connection.handleOwn, if_neg h]
  | close => rw [Connection.handleOwn, if_neg h]

/-! ## What a step does to one end -/

/-- What a step of the link does to one end. -/
inductive EndStep (c : NoiseCrypto Sk Pk) (manager : PeerManager Sk Pk H) (s : Side)
    (conn : Connection Sk Pk H) (task : ReadTask) (action : Action) :
    Connection Sk Pk H → ReadTask → Prop
  | idle : EndStep c manager s conn task action conn task
  | read {pauseRead : Bool} (h : task.reads = some pauseRead) (data : Bytes) :
    EndStep c manager s conn task action (readRounds c manager (conn, pauseRead) data).1
      (.reading (readRounds c manager (conn, pauseRead) data).2)
  | round : EndStep c manager s conn task action (scheduleRead conn task).1
      (scheduleRead conn task).2
  | own (event : OwnEvent) (h : action = .own s event) :
    EndStep c manager s conn task action (conn.handleOwn c event).1 task

/-- **A step does one of these to either end.** -/
theorem endStep_step (link : Link Sk Pk H) (action : Action) (s : Side) :
    EndStep c (m s) s (link.ends s) (link.tasks s) action ((link.step c m action).ends s)
      ((link.step c m action).tasks s) := by
  cases action with
  | receive t count =>
    rw [Link.step]
    cases hreads : (link.tasks t).reads with
    | none => exact .idle
    | some pauseRead =>
      rcases s.eq_or_eq_other t with rfl | rfl
      · simpa [Link.read] using
          EndStep.read hreads ((link.wire s).take (min count readBufferLength))
      · simpa [Link.read] using EndStep.idle
  | round t =>
    rw [Link.step]
    rcases s.eq_or_eq_other t with rfl | rfl
    · simpa using EndStep.round
    · simpa using EndStep.idle
  | own t event =>
    rw [Link.step]
    rcases s.eq_or_eq_other t with rfl | rfl
    · simpa using EndStep.own event rfl
    · simpa using EndStep.idle

section Steps
variable {manager : PeerManager Sk Pk H} {s : Side} {conn conn' : Connection Sk Pk H}
  {task task' : ReadTask} {action : Action} (h : EndStep c manager s conn task action conn' task')
include h

/-- **An end that is down stays down.** -/
theorem EndStep.down (hdown : conn.down ≠ none) : conn'.down ≠ none := by
  cases h with
  | idle => exact hdown
  | read hreads data =>
    rw [readRounds_down c manager hdown]
    exact hdown
  | round => exact hdown
  | own event heq =>
    rw [handleOwn_down hdown]
    exact hdown

/-- **An end that is ready stays ready.** -/
theorem EndStep.ready (hready : Ready conn) : Ready conn' := by
  cases h with
  | idle => exact hready
  | read hreads data => exact (readRounds_grows c manager conn _ data).ready hready
  | round => exact hready
  | own event heq =>
    rcases handleOwn_cases conn event with ⟨-, hgrows⟩ | ⟨hshrinks, -⟩
    · exact hgrows.ready hready
    · rw [Ready, hshrinks.encryptor]
      exact hready

/-- **Reading stays paused only while there is something to write**, unless the end writes before
the pause is recorded. -/
theorem EndStep.backed (hbacked : conn.Backed task)
    (hlate : ∀ event, action = .own s event → event.writes = true → task.pauses = false) :
    conn'.Backed task' := by
  cases h with
  | idle => exact hbacked
  | read hreads data => exact readRounds_backed c manager (hbacked.reading hreads) data
  | round =>
    rintro (hpaused | hpauses)
    · exact hbacked (Bool.or_eq_true_iff.mp hpaused)
    · cases hpauses
  | own event heq =>
    rcases handleOwn_cases conn event with ⟨-, hgrows⟩ | ⟨hshrinks, hgrows | hwrites⟩
    · exact hgrows.backed hbacked
    · exact hgrows.backed hbacked
    · rintro (hpaused | hpauses)
      · exact hshrinks.backed (fun hpaused => hbacked (.inl hpaused)) hpaused
      · rw [hlate event heq hwrites] at hpauses
        cases hpauses

end Steps

/-- **What every step keeps of an end holds in every run.** -/
theorem run_keeps (s : Side) {P : Connection Sk Pk H → ReadTask → Prop}
    (hstep : ∀ {conn conn' task task' action}, EndStep c (m s) s conn task action conn' task' →
      P conn task → P conn' task')
    {link : Link Sk Pk H} (h : P (link.ends s) (link.tasks s)) (actions : List Action) :
    P ((link.run c m actions).ends s) ((link.run c m actions).tasks s) := by
  induction actions generalizing link with
  | nil => exact h
  | cons action actions ih => exact ih (hstep (endStep_step link action s) h)

/-- An end writes while a pause is not recorded yet. -/
def Link.WritesLate (link : Link Sk Pk H) (s : Side) : Action → Prop
  | .own t event => t = s ∧ event.writes = true ∧ (link.tasks s).pauses = true
  | _ => False

instance (link : Link Sk Pk H) (s : Side) : DecidablePred (link.WritesLate s)
  | .own t event => inferInstanceAs
      (Decidable (t = s ∧ event.writes = true ∧ (link.tasks s).pauses = true))
  | .receive _ _ => inferInstanceAs (Decidable False)
  | .round _ => inferInstanceAs (Decidable False)

variable (c m) in
/-- In no step of the run does it do so. -/
def Link.NeverLate (s : Side) : Link Sk Pk H → List Action → Prop
  | _, [] => True
  | link, action :: actions =>
    ¬link.WritesLate s action ∧ Link.NeverLate s (link.step c m action) actions

instance Link.decidableNeverLate (s : Side) :
    (link : Link Sk Pk H) → DecidablePred (Link.NeverLate c m s link)
  | _, [] => inferInstanceAs (Decidable True)
  | link, action :: actions =>
    have := Link.decidableNeverLate s (link.step c m action) actions
    inferInstanceAs (Decidable (¬link.WritesLate s action ∧ _))

/-- So a step leaves a pause with its reason, unless it is such a write. -/
theorem step_backed {link : Link Sk Pk H} {s : Side} (h : (link.ends s).Backed (link.tasks s))
    {action : Action} (hlate : ¬link.WritesLate s action) :
    ((link.step c m action).ends s).Backed ((link.step c m action).tasks s) :=
  (endStep_step link action s).backed h fun _ heq hwrites =>
    Bool.eq_false_of_not_eq_true fun hpauses => hlate (heq ▸ ⟨rfl, hwrites, hpauses⟩)

/-- **In a run in which an end never writes too early, its reading is paused only while there is
something to write.** -/
theorem run_backed {s : Side} {link : Link Sk Pk H} (h : (link.ends s).Backed (link.tasks s))
    {actions : List Action} (hlate : link.NeverLate c m s actions) :
    ((link.run c m actions).ends s).Backed ((link.run c m actions).tasks s) := by
  induction actions generalizing link with
  | nil => exact h
  | cons action actions ih => exact ih (step_backed h hlate.1) hlate.2

/-! ## An end that is paused without a reason -/

/-- Reading is paused with nothing to write. -/
structure Connection.Stalled (conn : Connection Sk Pk H) (task : ReadTask) : Prop where
  readPaused : conn.readPaused = true
  queue : conn.peer.pendingOutboundBuffer = []
  task : task = .waiting false

/-- Without a reason for the pause it comes to this. -/
theorem stalled_of_not_backed {conn : Connection Sk Pk H} {task : ReadTask}
    (h : ¬conn.Backed task) : (scheduleRead conn task).1.Stalled (scheduleRead conn task).2 := by
  rw [Connection.Backed, Classical.not_imp, not_ne_iff] at h
  obtain ⟨hpaused, hnil⟩ := h
  have hor : (conn.readPaused || task.pauses) = true := Bool.or_eq_true_iff.mpr hpaused
  refine ⟨hor, hnil, ?_⟩
  rw [scheduleRead, hor]
  rfl

/-- There is no buffer to write that would resume reading. -/
theorem doAttemptWriteData_stalled {conn : Connection Sk Pk H} {task : ReadTask}
    (h : conn.Stalled task) (answers : List Nat) :
    (doAttemptWriteData conn answers).1.Stalled task ∧
      (doAttemptWriteData conn answers).1.handed = conn.handed := by
  rw [doAttemptWriteData]
  split
  case isTrue => exact ⟨h, rfl⟩
  case isFalse =>
    rw [h.queue, writeLoop]
    exact ⟨⟨h.readPaused, rfl, h.task⟩, rfl⟩

/-- **Nothing but a message for the peer ends this**: no bytes that arrive and no space there is. -/
theorem EndStep.stalled {manager : PeerManager Sk Pk H} {s : Side} {conn conn' : Connection Sk Pk H}
    {task task' : ReadTask} {action : Action}
    (h : EndStep c manager s conn task action conn' task') (hstalled : conn.Stalled task)
    (hsend : ∀ message, action ≠ .own s (.send message)) :
    conn'.Stalled task' ∧ conn'.handed = conn.handed := by
  cases h with
  | idle => exact ⟨hstalled, rfl⟩
  | read hreads data =>
    rw [hstalled.task] at hreads
    cases hreads
  | round =>
    have hor : (conn.readPaused || task.pauses) = true := by rw [hstalled.readPaused, Bool.true_or]
    exact ⟨⟨hor, hstalled.queue, by rw [scheduleRead, hor]; rfl⟩, rfl⟩
  | own event heq =>
    cases event with
    | send message => exact absurd heq (hsend message)
    | spaceAvail answers =>
      rw [Connection.handleOwn]
      split
      case isTrue =>
        have hspace : (conn.setAwaiting false).Stalled task :=
          ⟨hstalled.readPaused, hstalled.queue, hstalled.task⟩
        exact doAttemptWriteData_stalled hspace answers
      case isFalse => exact ⟨hstalled, rfl⟩
    | processEvents answers =>
      rw [Connection.handleOwn]
      split
      case isTrue => exact doAttemptWriteData_stalled hstalled answers
      case isFalse => exact ⟨hstalled, rfl⟩
    | close =>
      rw [Connection.handleOwn]
      split
      case isTrue => exact ⟨⟨hstalled.readPaused, hstalled.queue, hstalled.task⟩, rfl⟩
      case isFalse => exact ⟨hstalled, rfl⟩

/-- **An end that is paused without a reason reads nothing** until the node has a message for the
peer. -/
theorem run_stalled {s : Side} {link : Link Sk Pk H} (h : (link.ends s).Stalled (link.tasks s))
    {actions : List Action} (hsend : ∀ message, .own s (.send message) ∉ actions) :
    ((link.run c m actions).ends s).handed = (link.ends s).handed := by
  induction actions generalizing link with
  | nil => rfl
  | cons action actions ih =>
    obtain ⟨hnext, hhanded⟩ := (endStep_step (c := c) (m := m) link action s).stalled h
      fun message heq => hsend message (heq ▸ List.mem_cons_self)
    have hrest := ih hnext fun message hmem => hsend message (List.mem_cons_of_mem _ hmem)
    exact hrest.trans hhanded

/-- A message for the peer is something to write. -/
theorem step_send_backed {link : Link Sk Pk H} {s : Side} (hup : (link.ends s).down = none)
    (hready : Ready (link.ends s)) (hid : (link.ends s).peer.theirNodeId.isSome)
    {message : WireMessage} (hfits : message.Fits) :
    ((link.step c m (.own s (.send message))).ends s).Backed
      ((link.step c m (.own s (.send message))).tasks s) := by
  obtain ⟨nodeId, send, receive, hfin⟩ := exists_finished hready
  rw [Link.step, Link.setWire_ends, Link.setEnd_ends_self, Connection.handleOwn,
    if_pos ⟨hup, hready⟩, enqueueMessage_finished c hup hfin hid hfits]
  exact fun _ => List.append_ne_nil_of_right_ne_nil _ (List.cons_ne_nil _ _)

/-! ## Before the handshake is done -/

/-- Only the second act is ever queued before the handshake is done. -/
structure Connection.FewQueued (conn : Connection Sk Pk H) : Prop where
  fresh : conn.peer.channelEncryptor.getNoiseStep = .actOne → conn.peer.pendingOutboundBuffer = []
  few : ¬Ready conn → conn.peer.pendingOutboundBuffer.length ≤ 1

theorem Connection.FewQueued.pausesRead {conn : Connection Sk Pk H} (h : conn.FewQueued)
    (hnot : ¬Ready conn) : conn.peer.pausesRead = false := by
  have hfew := h.few hnot
  rw [Peer.pausesRead, outboundBufferLimitReadPause]
  exact decide_eq_false (by omega)

theorem fewQueued_of_ready {conn : Connection Sk Pk H} (h : Ready conn) : conn.FewQueued :=
  ⟨fun hstep => absurd h (not_ready hstep (by simp)), fun hnot => absurd h hnot⟩

theorem Connection.Shrinks.fewQueued {conn next : Connection Sk Pk H} (h : conn.Shrinks next)
    (hfew : conn.FewQueued) : next.FewQueued := by
  refine ⟨fun hstep => ?_, fun hnot => ?_⟩
  · rw [h.encryptor] at hstep
    have hqueue := h.queue
    rwa [hfew.fresh hstep, List.suffix_nil] at hqueue
  · rw [Ready, h.encryptor] at hnot
    exact h.queue.length_le.trans (hfew.few hnot)

section Frames
variable (c) (manager : PeerManager Sk Pk H)

/-- The first act is answered by the second. -/
theorem processActOneWithKeys_ok {e e' : PeerChannelEncryptor Sk Pk} {act actTwo : Bytes}
    {ourNodeSecret ourEphemeral : Sk}
    (h : processActOneWithKeys c e act ourNodeSecret ourEphemeral = .ok (e', actTwo)) :
    e'.getNoiseStep = .actThree := by
  rw [processActOneWithKeys] at h
  split at h
  case h_1 =>
    obtain ⟨_, -, h⟩ := bind_eq_ok h
    cases h
    rfl
  case h_2 => cases h

/-- An accepted second act finishes the handshake. -/
theorem processActTwo_ok {e e' : PeerChannelEncryptor Sk Pk} {act actThree : Bytes}
    {ourNodeSecret : Sk} {theirNodeId : Pk}
    (h : processActTwo c e act ourNodeSecret = .ok (e', actThree, theirNodeId)) :
    e'.isReadyForEncryption = true := by
  rw [processActTwo] at h
  split at h
  case h_1 =>
    obtain ⟨_, -, h⟩ := bind_eq_ok h
    dsimp only at h
    split at h
    case h_1 =>
      cases h
      rfl
    case h_2 => cases h
  case h_2 => cases h

/-- The first act is answered by one buffer, and behind the other two the handshake is done. -/
theorem onFrame_fewQueued {conn : Connection Sk Pk H} (h : conn.FewQueued) :
    (onFrame c manager conn).FewQueued := by
  by_cases hready : Ready conn
  · exact fewQueued_of_ready (((Connection.Grows.refl conn).onFrame c manager).ready hready)
  · rw [onFrame]
    split
    case h_1 hstep =>
      split
      · exact ⟨h.fresh, h.few⟩
      · rename_i e actTwo hres
        have hthree : e.getNoiseStep = .actThree := processActOneWithKeys_ok c hres
        refine ⟨fun hone => ?_, fun _ => ?_⟩
        · cases hthree.symm.trans hone
        · simp [Peer.pushBack, Peer.awaitFrame, h.fresh hstep]
    case h_2 =>
      split
      · exact ⟨h.fresh, h.few⟩
      · rename_i e actThree theirNodeId hres
        refine fewQueued_of_ready ?_
        refine ((Connection.Grows.refl _).finishHandshake c manager theirNodeId).ready ?_
        exact processActTwo_ok c hres
    case h_3 =>
      split
      · exact ⟨h.fresh, h.few⟩
      · rename_i e theirNodeId hres
        refine fewQueued_of_ready ?_
        refine ((Connection.Grows.refl _).finishHandshake c manager theirNodeId).ready ?_
        exact processActThree_ok c hres
    case h_4 hstep => exact absurd (ready_of_noiseComplete hstep) hready

theorem readPiece_fewQueued {conn : Connection Sk Pk H} (h : conn.FewQueued) (piece : Bytes) :
    (readPiece c manager conn piece).FewQueued := by
  rw [readPiece]
  split
  · exact h
  · split
    · exact ⟨h.fresh, h.few⟩
    · split
      · exact onFrame_fewQueued c manager ⟨h.fresh, h.few⟩
      · exact ⟨h.fresh, h.few⟩

end Frames

/-- **Before the handshake is done** too little is queued for a pause that is recorded late. -/
structure Connection.Calm (conn : Connection Sk Pk H) (task : ReadTask) : Prop where
  fewQueued : conn.FewQueued
  pauses : ¬Ready conn → task.pauses = false
  backed : ¬Ready conn → conn.Backed task

section Calm
variable (c) (manager : PeerManager Sk Pk H)

/-- Over so short a queue no read event asks for a pause. -/
theorem readRounds_calm {conn : Connection Sk Pk H} {pauseRead : Bool} (h : conn.FewQueued)
    (hpauses : ¬Ready conn → pauseRead = false) (data : Bytes) :
    (readRounds c manager (conn, pauseRead) data).1.FewQueued ∧
      (¬Ready (readRounds c manager (conn, pauseRead) data).1 →
        (readRounds c manager (conn, pauseRead) data).2 = false) := by
  refine feed_keeps (P := fun state : Connection Sk Pk H × Bool =>
    state.1.FewQueued ∧ (¬Ready state.1 → state.2 = false)) ?_ ⟨h, hpauses⟩ _ data
  rintro ⟨now, pauseRead⟩ piece ⟨h, hpauses⟩
  have hnext := readPiece_fewQueued c manager h piece
  rw [readRound_fst]
  refine ⟨hnext, fun hnot => ?_⟩
  have hbefore : ¬Ready now := fun hready =>
    hnot (((Connection.Grows.refl now).readPiece c manager piece).ready hready)
  rcases readRound_snd c manager now pauseRead piece with hsnd | hsnd | hsnd
  · exact hsnd.trans (hnext.pausesRead hnot)
  · exact hsnd.trans (h.pausesRead hbefore)
  · exact hsnd.trans (hpauses hbefore)

end Calm

/-- **Every step keeps it so.** -/
theorem EndStep.calm {manager : PeerManager Sk Pk H} {s : Side} {conn conn' : Connection Sk Pk H}
    {task task' : ReadTask} {action : Action}
    (h : EndStep c manager s conn task action conn' task') (hcalm : conn.Calm task) :
    conn'.Calm task' := by
  have hbacked : ¬Ready conn' → conn'.Backed task' := fun hnot =>
    have hbefore : ¬Ready conn := fun hready => hnot (h.ready hready)
    h.backed (hcalm.backed hbefore) fun _ _ _ => hcalm.pauses hbefore
  cases h with
  | idle => exact hcalm
  | read hreads data =>
    rw [ReadTask.pauses_of_reads hreads] at hbacked ⊢
    obtain ⟨hfew, hpauses⟩ := readRounds_calm c manager hcalm.fewQueued hcalm.pauses data
    exact ⟨hfew, hpauses, hbacked⟩
  | round => exact ⟨⟨hcalm.fewQueued.fresh, hcalm.fewQueued.few⟩, fun _ => rfl, hbacked⟩
  | own event heq =>
    rcases handleOwn_cases conn event with ⟨hready, hgrows⟩ | ⟨hshrinks, -⟩
    · have hnext := hgrows.ready hready
      exact ⟨fewQueued_of_ready hnext, fun hnot => absurd hnext hnot, hbacked⟩
    · refine ⟨hshrinks.fewQueued hcalm.fewQueued, fun hnot => hcalm.pauses ?_, hbacked⟩
      rwa [Ready, hshrinks.encryptor] at hnot

/-- The connection starts like this. -/
theorem connect_calm {nodes : Side → H} {link : Link Sk Pk H} (h : connect c m nodes = .ok link)
    (s : Side) : (link.ends s).Backed (link.tasks s) ∧ (link.ends s).Calm (link.tasks s) := by
  cases h
  have hbacked : ∀ conn : Connection Sk Pk H, conn.readPaused = false →
      conn.Backed (.waiting true) := by
    rintro conn hpaused (h | h)
    · cases hpaused.symm.trans h
    · cases h
  cases s with
  | out => exact ⟨hbacked _ rfl, ⟨⟨fun _ => rfl, fun _ => Nat.zero_le 1⟩, fun _ => rfl,
      fun _ => hbacked _ rfl⟩⟩
  | inn => exact ⟨hbacked _ rfl, ⟨⟨fun _ => rfl, fun _ => Nat.zero_le 1⟩, fun _ => rfl,
      fun _ => hbacked _ rfl⟩⟩

end Noise
end HiddenLightning
