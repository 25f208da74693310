import HiddenLightning.PeerLink

/-! # Messages arrive

Each step of the link keeps the invariant.  What is sealed at one end is appended to what is still
to come at the other (`Good.send`); writes and the bytes of an unfinished frame are not seen
(`Good.write`, `Good.byte`); and a frame that is complete is the one that the invariant says is the
next, so that it is accepted and the connection is at the frame after it (`Good.frame`).

`connection_delivers` puts this together for every run of two honest nodes. -/
namespace HiddenLightning
namespace Noise
open KeyStreams FrameBuffers

variable {Sk Pk H : Type} {c : NoiseCrypto Sk Pk} {m : Side → PeerManager Sk Pk H}

/-! ## Sending and writing -/

theorem Link.setWire_nil (link : Link Sk Pk H) (s : Side) :
    link.setWire s (link.wire s ++ []) = link := by
  simp [Link.setWire]

theorem Link.setEnd_same (link : Link Sk Pk H) (s : Side) : link.setEnd s (link.ends s) = link := by
  simp [Link.setEnd]

theorem tidy_setEnd {link : Link Sk Pk H} {s : Side} {conn : Connection Sk Pk H}
    (h : ∀ t, Tidy (link.ends t)) (hconn : Tidy conn) (t : Side) :
    Tidy ((link.setEnd s conn).ends t) := by
  rcases t.eq_or_eq_other s with rfl | rfl
  · rw [Link.setEnd_ends_self]
    exact hconn
  · rw [Link.setEnd_ends_other]
    exact h s.other

/-- An end that has finished the handshake knows the other one. -/
theorem Inv.known {v : Side → Port Sk Pk} (h : Inv c m v) {s : Side} (hup : (v s).down = none)
    {nodeId : Option Pk} {send receive : CipherState}
    (hfin : (v s).encryptor = ⟨nodeId, .finished send receive⟩) : (v s).theirNodeId.isSome := by
  have hknows : ∃ id, (v s).Knows id := by
    cases h with
    | one h =>
      cases s with
      | out => cases h.out_encryptor.symm.trans hfin
      | inn => cases h.inn_encryptor.symm.trans hfin
    | two h =>
      cases s with
      | out => cases h.out_encryptor.symm.trans hfin
      | inn => cases h.inn_encryptor.symm.trans hfin
    | three h =>
      cases s with
      | out => exact ⟨_, h.out_knows⟩
      | inn => cases h.inn_encryptor.symm.trans hfin
    | opened sends receives msgs h => exact ⟨_, h.knows s⟩
  obtain ⟨id, hknows | ⟨-, hdown⟩⟩ := hknows
  · rw [hknows]
    rfl
  · exact absurd hup hdown

/-- **A message is sent.** -/
theorem Good.send {link : Link Sk Pk H} (h : Good c m link) {s : Side}
    (hup : (link.ends s).down = none)
    (hready : (link.ends s).peer.channelEncryptor.isReadyForEncryption = true)
    {message : WireMessage} (hfits : message.Fits) :
    Good c m (link.setEnd s (enqueueMessage c (link.ends s) message)) := by
  obtain ⟨nodeId, send, receive, hfin⟩ := exists_finished hready
  have htidy := h.tidy s
  rw [enqueueMessage_finished c hup hfin (h.inv.known (s := s) hup hfin) hfits]
  refine ⟨?_, tidy_setEnd h.tidy ⟨htidy.pos_lt, ?_, ?_, htidy.long, htidy.faultless⟩⟩
  · have hunsent : ((link.ends s).queue c nodeId send receive message.bytes).unsent =
        (link.ends s).unsent ++ (header c send message.bytes ++ body c send message.bytes) :=
      remaining_concat htidy.offset _
    rw [view_setEnd link s hunsent]
    exact h.inv.seal (s := s) hfin message.bytes
  · exact htidy.offset.concat _
  · intro msg hmsg
    rcases List.mem_append.mp hmsg with hmsg | hmsg
    · exact htidy.sendable msg hmsg
    · rw [List.mem_singleton.mp hmsg]
      exact ⟨message.two_le, hfits⟩

theorem Good.sends {link : Link Sk Pk H} (h : Good c m link) {s : Side}
    (hup : (link.ends s).down = none)
    (hready : (link.ends s).peer.channelEncryptor.isReadyForEncryption = true)
    {messages : List WireMessage} (hfits : ∀ message ∈ messages, message.Fits) :
    Good c m (link.setEnd s (messages.foldl (enqueueMessage c) (link.ends s))) := by
  induction messages generalizing link with
  | nil =>
    rw [List.foldl_nil, Link.setEnd_same]
    exact h
  | cons message messages ih =>
    obtain ⟨hmessage, hfits⟩ := List.forall_mem_cons.mp hfits
    have hnext := h.send hup hready hmessage
    obtain ⟨nodeId, send, receive, hfin⟩ := exists_finished hready
    have henq := enqueueMessage_finished c hup hfin (h.inv.known (s := s) hup hfin) hmessage
    have hlast := ih hnext (by rw [Link.setEnd_ends_self, henq]; exact hup)
      (by rw [Link.setEnd_ends_self, henq]; rfl) hfits
    rw [Link.setEnd_ends_self] at hlast
    simpa [Link.setEnd] using hlast

theorem extend_nil (link : Link Sk Pk H) (s : Side) : (link.view s).extend [] = link.view s := by
  by_cases hup : (link.ends s).down = none
  · simp [Port.extend, Link.view, Connection.port, hup]
  · simp [Port.extend, Link.view, Connection.port, hup]

/-- **An end goes down** by its own choice. -/
theorem Good.halt {link : Link Sk Pk H} (h : Good c m link) (s : Side) (reason : Stop)
    (hlong : reason ≠ .shortMessage) (hfault : ∀ fault, reason ≠ .fault fault)
    {theirNodeId : Option Pk}
    (hid : theirNodeId = none ∨ theirNodeId = (link.ends s).peer.theirNodeId) :
    Good c m (link.setEnd s ({ link.ends s with
      peer := { (link.ends s).peer with theirNodeId := theirNodeId } }.stop reason)) := by
  have htidy := h.tidy s
  refine ⟨?_, tidy_setEnd h.tidy ⟨nofun, htidy.offset, htidy.sendable,
    fun heq => hlong (Option.some.inj heq), fun fault heq => hfault fault (Option.some.inj heq)⟩⟩
  have hunsent : ({ link.ends s with
      peer := { (link.ends s).peer with theirNodeId := theirNodeId } }.stop reason).unsent =
        (link.ends s).unsent ++ [] := (List.append_nil _).symm
  rw [view_setEnd link s hunsent, extend_nil]
  exact h.inv.halt s reason hid

/-- An end has written `sent`, and nothing else of it is seen to change. -/
structure Connection.Writes (conn next : Connection Sk Pk H) (sent : Bytes) : Prop where
  tidy : Tidy next
  unsent : sent ++ next.unsent = conn.unsent
  port : ∀ wire unsent, next.port wire unsent = conn.port wire unsent

/-- A write takes from the front of what is not sent yet, and changes nothing else. -/
theorem doAttemptWriteData_writes {conn : Connection Sk Pk H} (h : Tidy conn)
    (answers : List Nat) :
    conn.Writes (doAttemptWriteData conn answers).1 (doAttemptWriteData conn answers).2 := by
  rw [doAttemptWriteData]
  split
  case isTrue => exact ⟨h, rfl, fun _ _ => rfl⟩
  case isFalse =>
    refine ⟨⟨h.pos_lt, ?_, h.sendable, h.long, h.faultless⟩, ?_, fun _ _ => rfl⟩
    · exact writeLoop_offset h.offset _ answers
    · exact writeLoop_remaining _ _ _ answers

theorem writeBufferSpaceAvail_writes {conn : Connection Sk Pk H} (h : Tidy conn)
    (answers : List Nat) :
    conn.Writes (writeBufferSpaceAvail conn answers).1 (writeBufferSpaceAvail conn answers).2 := by
  have hawaiting : Tidy (conn.setAwaiting false) :=
    ⟨h.pos_lt, h.offset, h.sendable, h.long, h.faultless⟩
  have hwrites := doAttemptWriteData_writes hawaiting answers
  exact ⟨hwrites.tidy, hwrites.unsent, hwrites.port⟩

/-- **Bytes are written.** -/
theorem Good.write {link : Link Sk Pk H} (h : Good c m link) {s : Side}
    {conn : Connection Sk Pk H} {sent : Bytes} (hwrites : (link.ends s).Writes conn sent) :
    Good c m ((link.setEnd s conn).setWire s.other (link.wire s.other ++ sent)) := by
  refine ⟨?_, tidy_setEnd h.tidy hwrites.tidy⟩
  have hview : ((link.setEnd s conn).setWire s.other (link.wire s.other ++ sent)).view =
      link.view := by
    funext t
    rcases t.eq_or_eq_other s with rfl | rfl
    · simp [Link.view, hwrites.port]
    · simp [Link.view, Connection.port, ← hwrites.unsent]
  rw [hview]
  exact h.inv

/-- An end reads on, or does not. -/
theorem Good.pause {link : Link Sk Pk H} (h : Good c m link) (s : Side) (readPaused : Bool) :
    Good c m (link.setEnd s { link.ends s with readPaused := readPaused }) := by
  have htidy := h.tidy s
  have hwrites : (link.ends s).Writes { link.ends s with readPaused := readPaused } [] :=
    ⟨⟨htidy.pos_lt, htidy.offset, htidy.sendable, htidy.long, htidy.faultless⟩, rfl,
      fun _ _ => rfl⟩
  have hwrite := h.write hwrites
  rwa [← Link.setEnd_wire link s { link.ends s with readPaused := readPaused },
    Link.setWire_nil] at hwrite

/-! ## The frames of an honest peer -/

section Frames
variable (hc : c.Lawful) {conn : Connection Sk Pk H}
include hc

theorem onFrame_one (henc : conn.peer.channelEncryptor = newInbound c (m .inn).ourNodeSecret)
    (hbuf : conn.peer.pendingReadBuffer = firstAct c m) :
    onFrame c (m .inn) conn = { conn with
      peer := (conn.peer.awaitFrame (innMiddle c m) (zeros 66)
        conn.peer.pendingReadIsHeader).pushBack (secondAct c m) } := by
  have hres := handshake_one (m .out).ephemeralKey (m .inn).ourNodeSecret (m .inn).ephemeralKey hc
  rw [onFrame, henc, hbuf, firstAct]
  simp only [PeerChannelEncryptor.getNoiseStep, newInbound] at hres ⊢
  rw [hres]
  rfl

theorem onFrame_two (henc : conn.peer.channelEncryptor = outStart c m)
    (hbuf : conn.peer.pendingReadBuffer = secondAct c m) :
    onFrame c (m .out) conn = finishHandshake c (m .out) { conn with
      peer := (conn.peer.awaitFrame ⟨some (nodeIdOf c m .inn),
        .finished (sendKey c m .out) (sendKey c m .inn)⟩ (zeros 18) true).pushBack
          (thirdAct c m) } (nodeIdOf c m .inn) := by
  have hres := handshake_two (m .out).ourNodeSecret (m .out).ephemeralKey (m .inn).ourNodeSecret
    (m .inn).ephemeralKey hc
  rw [onFrame, henc, hbuf, secondAct, outStart]
  simp only [PeerChannelEncryptor.getNoiseStep, awaitingTwo] at hres ⊢
  rw [hres]
  rfl

theorem onFrame_three (henc : conn.peer.channelEncryptor = innMiddle c m)
    (hbuf : conn.peer.pendingReadBuffer = thirdAct c m) :
    onFrame c (m .inn) conn = finishHandshake c (m .inn) { conn with
      peer := conn.peer.awaitFrame ⟨some (nodeIdOf c m .out),
        .finished (sendKey c m .inn) (sendKey c m .out)⟩ (zeros 18) true }
      (nodeIdOf c m .out) := by
  have hres := handshake_three (m .out).ourNodeSecret (m .out).ephemeralKey (m .inn).ourNodeSecret
    (m .inn).ephemeralKey hc
  rw [onFrame, henc, hbuf, thirdAct, innMiddle]
  simp only [PeerChannelEncryptor.getNoiseStep, awaitingThree] at hres ⊢
  rw [hres]
  rfl

variable {manager : PeerManager Sk Pk H} {nodeId : Option Pk} {s r : CipherState} {msg : Bytes}
  (hmin : 2 ≤ msg.length) (hmax : msg.length ≤ lnMaxMsgLen)
include hmin hmax

theorem onFrame_header (henc : conn.peer.channelEncryptor = ⟨nodeId, .finished s r⟩)
    (hbuf : conn.peer.pendingReadBuffer = header c r msg)
    (hheader : conn.peer.pendingReadIsHeader = true) :
    onFrame c manager conn = { conn with
      peer := conn.peer.awaitFrame ⟨nodeId, .finished s (r.opened c)⟩
        (resize conn.peer.pendingReadBuffer (msg.length + 16) 0) false } := by
  rw [onFrame, hheader, hbuf, henc]
  simp only [PeerChannelEncryptor.getNoiseStep, if_true]
  rw [decryptLengthHeader_header hc hmax]
  exact if_neg (by omega)

theorem onFrame_body (henc : conn.peer.channelEncryptor = ⟨nodeId, .finished s (r.opened c)⟩)
    (hbuf : conn.peer.pendingReadBuffer = body c r msg)
    (hheader : conn.peer.pendingReadIsHeader = false) :
    onFrame c manager conn = onMessage c manager { conn with
      peer := conn.peer.awaitFrame ⟨nodeId, .finished s (r.next c)⟩
        (resize conn.peer.pendingReadBuffer 18 0) true } msg := by
  rw [onFrame, hheader, hbuf, henc]
  simp only [PeerChannelEncryptor.getNoiseStep, Bool.false_eq_true, if_false]
  rw [decryptMessage_body hc hmax]
  exact if_neg (by omega)

end Frames

/-! ## Frames that are complete -/

/-- A byte completes the frame an end is reading. -/
structure Completes (link : Link Sk Pk H) (s : Side) (b : UInt8) (w : Bytes) : Prop where
  up : (link.ends s).down = none
  wire : link.wire s = b :: w
  full : (link.ends s).peer.pendingReadBufferPos + 1 =
    (link.ends s).peer.pendingReadBuffer.length

/-- The frame. -/
def Link.frame (link : Link Sk Pk H) (s : Side) (b : UInt8) : Bytes :=
  overwrite (link.ends s).peer.pendingReadBuffer (link.ends s).peer.pendingReadBufferPos [b]

theorem Completes.frame_eq {link : Link Sk Pk H} {s : Side} {b : UInt8} {w : Bytes}
    (h : Completes link s b w) : link.frame s b = (link.ends s).received ++ [b] := by
  have hfull := h.full
  rw [Link.frame, overwrite, Connection.received, List.length_singleton,
    List.drop_of_length_le (by omega), List.append_nil]

theorem Completes.length {link : Link Sk Pk H} {s : Side} {b : UInt8} {w : Bytes}
    (h : Completes link s b w) : (link.frame s b).length = (link.view s).need := by
  have hfull := h.full
  exact length_overwrite (by rw [List.length_singleton]; omega)

/-- What an end reads starts with the frame. -/
theorem Completes.coming {link : Link Sk Pk H} {s : Side} {b : UInt8} {w : Bytes}
    (h : Completes link s b w) :
    (link.view s).coming = link.frame s b ++ (w ++ (link.ends s.other).unsent) := by
  rw [h.frame_eq]
  simp [Link.view, Connection.port, h.up, h.wire]

/-- The frame is the first that is to come. -/
theorem Completes.first {link : Link Sk Pk H} {s : Side} {b : UInt8} {w : Bytes}
    (h : Completes link s b w) {need : Nat} {frame rest : Bytes}
    (hneed : (link.view s).need = need) (hcoming : (link.view s).coming = frame ++ rest)
    (hlen : frame.length = need) :
    link.frame s b = frame ∧ w ++ (link.ends s.other).unsent = rest := by
  have heq := h.coming.symm.trans hcoming
  exact List.append_inj heq (h.length.trans (hneed.trans hlen.symm))

/-- An end that has nothing to read does not complete a frame. -/
theorem Completes.not_reads_nil {link : Link Sk Pk H} {s : Side} {b : UInt8} {w : Bytes}
    (h : Completes link s b w) {need : Nat} (hreads : (link.view s).Reads need []) : False := by
  have hcoming := h.coming.symm.trans (hreads h.up).2
  rw [h.frame_eq] at hcoming
  simp at hcoming

/-- What is still to come after a frame. -/
theorem coming_of_read {conn : Connection Sk Pk H} (hup : conn.down = none)
    (hpos : conn.peer.pendingReadBufferPos = 0) (wire unsent : Bytes) :
    (conn.port wire unsent).coming = wire ++ unsent := by
  simp [Connection.port, hup, Connection.received, hpos]

/-- What is seen when one end has read a frame and has written `bytes` more. -/
theorem view_setWire_setEnd (link : Link Sk Pk H) (s : Side) (w bytes : Bytes)
    {conn : Connection Sk Pk H}
    (h : conn.unsent = (link.ends s).unsent ++ bytes) :
    ((link.setWire s w).setEnd s conn).view =
      ports s (conn.port w (link.ends s.other).unsent) ((link.view s.other).extend bytes) := by
  rw [view_setEnd (link.setWire s w) s h]
  simp [Link.view]

/-- What is seen when one end has read, and has written nothing. -/
theorem view_read (link : Link Sk Pk H) (s : Side) (w : Bytes) {conn : Connection Sk Pk H}
    (h : conn.unsent = (link.ends s).unsent) :
    ((link.setWire s w).setEnd s conn).view =
      ports s (conn.port w (link.ends s.other).unsent) (link.view s.other) := by
  rw [view_setWire_setEnd link s w [] (h.trans (List.append_nil _).symm), extend_nil]

@[simp] theorem Link.setEnd_setEnd (link : Link Sk Pk H) (s : Side)
    (conn conn' : Connection Sk Pk H) :
    (link.setEnd s conn).setEnd s conn' = link.setEnd s conn' := by
  simp [Link.setEnd]

/-- The end of the handshake: the node is entered and greeted, or the connection is not wanted. -/
theorem Good.finish (hm : ∀ s, (m s).Fits) {link : Link Sk Pk H} {s : Side}
    {conn : Connection Sk Pk H} {theirNodeId : Pk} (hup : conn.down = none)
    (hready : conn.peer.channelEncryptor.isReadyForEncryption = true)
    (h : ∀ node, Good c m (link.setEnd s { conn with
      peer := { conn.peer with theirNodeId := some theirNodeId }, node := node })) :
    Good c m (link.setEnd s (finishHandshake c (m s) conn theirNodeId)) := by
  rw [finishHandshake]
  split
  case h_1 =>
    have hhalt := (h conn.node).halt s .secondConnection (by simp) (by simp)
      (.inl rfl)
    rw [Link.setEnd_setEnd, Link.setEnd_ends_self] at hhalt
    exact hhalt
  case h_2 node _ =>
    have hsend := (h node).send (s := s) (by rw [Link.setEnd_ends_self]; exact hup)
      (by rw [Link.setEnd_ends_self]; exact hready) (hm s).init
    rw [Link.setEnd_setEnd, Link.setEnd_ends_self] at hsend
    exact hsend

/-- One end of an open connection goes on with what it reads. -/
theorem StageOpen.advance {v : Side → Port Sk Pk} {send receive : Side → CipherState}
    {msgs : Side → List Bytes} (h : StageOpen c m v send receive msgs) {s : Side} {p : Port Sk Pk}
    {r : CipherState} {l : List Bytes}
    (henc : p.encryptor = ⟨some (nodeIdOf c m s.other), .finished (send s) r⟩)
    (hid : p.theirNodeId = (v s).theirNodeId) (hdown : p.down = (v s).down)
    (hqueued : p.queued = (v s).queued) (hhanded : p.handed ++ l = (v s).handed ++ msgs s)
    (hstream : p.down = none → Stream c p.isHeader p.need p.coming (send s.other) r l) :
    StageOpen c m (ports s p (v s.other)) send (Function.update receive s r)
      (Function.update msgs s l) := by
  refine ⟨?_, ?_, ?_, ?_⟩
  · intro t
    rcases t.eq_or_eq_other s with rfl | rfl
    · simpa using henc
    · simpa using h.encryptor s.other
  · intro t
    rcases t.eq_or_eq_other s with rfl | rfl
    · rw [ports_self, Port.Knows, hid, hdown]
      exact h.knows t
    · rw [ports_other]
      exact h.knows s.other
  · intro t
    rcases t.eq_or_eq_other s with rfl | rfl
    · simpa [hhanded] using h.queued t
    · simpa [hqueued] using h.queued s.other
  · intro t hup
    rcases t.eq_or_eq_other s with rfl | rfl
    · rw [ports_self] at hup
      simpa using hstream hup
    · rw [ports_other] at hup
      simpa using h.stream s.other hup

section Frames
variable (hc : c.Lawful) {link : Link Sk Pk H} {b : UInt8} {w : Bytes}
include hc

/-- The first act has arrived. -/
theorem Good.frame_one (h : Good c m link) (hstage : StageOne c m link.view)
    (hcomp : Completes link .inn b w) :
    Good c m ((link.setWire .inn w).setEnd .inn
      (onFrame c (m .inn) ((link.ends .inn).copy [b] 0))) := by
  obtain ⟨hneed, hcoming⟩ := hstage.inn_reads hcomp.up
  obtain ⟨hbuf, hrest⟩ := hcomp.first hneed (hcoming.trans (List.append_nil _).symm)
    (length_actOne (m .out).ephemeralKey (m .inn).ourNodeSecret hc)
  have hres : onFrame c (m .inn) ((link.ends .inn).copy [b] 0) = _ :=
    onFrame_one hc hstage.inn_encryptor hbuf
  have htidy := h.tidy .inn
  rw [hres]
  refine ⟨?_, tidy_setEnd h.tidy ⟨fun _ => ?_, ?_, htidy.sendable, htidy.long, htidy.faultless⟩⟩
  · rw [view_setWire_setEnd link .inn w (secondAct c m)]
    swap
    · exact remaining_concat htidy.offset _
    have hinn := hstage.quiet .inn
    have hout := hstage.quiet .out
    refine .two ⟨hstage.out_encryptor, rfl, ports_quiet .inn
      ⟨hinn.queued, hinn.handed, hinn.unknown⟩ ⟨hout.queued, hout.handed, hout.unknown⟩,
      hstage.out_reads.extend (secondAct c m), fun hup => ⟨length_zeros 66, ?_⟩⟩
    rw [ports_self, coming_of_read]
    exacts [hrest, hcomp.up, rfl]
  · simp [Connection.copy, Peer.awaitFrame, Peer.pushBack]
  · exact htidy.offset.concat _

/-- The second has. -/
theorem Good.frame_two (hm : ∀ s, (m s).Fits) (h : Good c m link) (hstage : StageTwo c m link.view)
    (hcomp : Completes link .out b w) :
    Good c m ((link.setWire .out w).setEnd .out
      (onFrame c (m .out) ((link.ends .out).copy [b] 0))) := by
  obtain ⟨hneed, hcoming⟩ := hstage.out_reads hcomp.up
  obtain ⟨hbuf, hrest⟩ := hcomp.first hneed (hcoming.trans (List.append_nil _).symm)
    (length_actTwo (m .out).ephemeralKey (m .inn).ourNodeSecret (m .inn).ephemeralKey hc)
  have hres : onFrame c (m .out) ((link.ends .out).copy [b] 0) = _ :=
    onFrame_two hc hstage.out_encryptor hbuf
  have htidy := h.tidy .out
  rw [hres]
  refine Good.finish hm hcomp.up rfl fun node => ⟨?_, tidy_setEnd h.tidy
    ⟨fun _ => ?_, ?_, htidy.sendable, htidy.long, htidy.faultless⟩⟩
  · rw [view_setWire_setEnd link .out w (thirdAct c m)]
    swap
    · exact remaining_concat htidy.offset _
    have hquiet := hstage.quiet .inn
    have hqueued : (link.view .out).queued = [] := (hstage.quiet .out).queued
    refine .three ⟨?_, hstage.inn_encryptor, ⟨hquiet.queued, hquiet.handed, hquiet.unknown⟩,
      (hstage.quiet .out).handed, .inl rfl, fun hup => ⟨length_zeros 18, ?_⟩, rfl, ?_⟩
    · have hqueued' : (link.ends .out).queued = [] := hqueued
      simp [ports, Connection.port, Connection.copy, Peer.pushBack, Peer.awaitFrame, hqueued',
        CipherState.after]
    · rw [ports_self, coming_of_read]
      exacts [hrest, hcomp.up, rfl]
    · have hreads : ((link.view Side.out.other).extend (thirdAct c m)).Reads 66 (thirdAct c m) :=
        hstage.inn_reads.extend (thirdAct c m)
      have hqueued' : (link.ends .out).queued = [] := hqueued
      simpa [ports, Connection.port, Connection.copy, hqueued', sealAll] using hreads
  · simp [Connection.copy, Peer.awaitFrame, Peer.pushBack]
  · exact htidy.offset.concat _

/-- The third has. -/
theorem Good.frame_three (hm : ∀ s, (m s).Fits) (h : Good c m link)
    (hstage : StageThree c m link.view) (hcomp : Completes link .inn b w) :
    Good c m ((link.setWire .inn w).setEnd .inn
      (onFrame c (m .inn) ((link.ends .inn).copy [b] 0))) := by
  obtain ⟨hneed, hcoming⟩ := hstage.inn_reads hcomp.up
  obtain ⟨hbuf, hrest⟩ := hcomp.first hneed hcoming
    (length_actThree (m .out).ourNodeSecret (m .out).ephemeralKey (m .inn).ourNodeSecret
      (m .inn).ephemeralKey hc)
  have hres : onFrame c (m .inn) ((link.ends .inn).copy [b] 0) = _ :=
    onFrame_three hc hstage.inn_encryptor hbuf
  have htidy := h.tidy .inn
  have hquiet := hstage.inn_quiet
  rw [hres]
  refine Good.finish hm hcomp.up rfl fun node => ⟨?_, tidy_setEnd h.tidy
    ⟨fun _ => ?_, htidy.offset, htidy.sendable, htidy.long, htidy.faultless⟩⟩
  · rw [view_read link .inn w]
    swap
    · rfl
    refine .opened
      (Side.choose ((sendKey c m .out).after c (link.view .out).queued) (sendKey c m .inn))
      (fun s => sendKey c m s.other)
      (Side.choose [] (link.view .out).queued) ⟨?_, ?_, ?_, ?_⟩
    · intro s
      cases s with
      | out => exact hstage.out_encryptor
      | inn => rfl
    · intro s
      cases s with
      | out => exact hstage.out_knows
      | inn => exact .inl rfl
    · intro s
      cases s with
      | out =>
        have hqueued : (link.ends .inn).queued = [] := hquiet.queued
        have hhanded : (link.ends .out).handed = [] := hstage.out_handed
        simp [ports, Side.other, Side.choose, Connection.port, Connection.copy, Link.view, hqueued,
          hhanded]
      | inn =>
        have hhanded : (link.ends .inn).handed = [] := hquiet.handed
        simp [ports, Side.other, Side.choose, Connection.port, Connection.copy, Link.view, hhanded]
    · intro s hup
      cases s with
      | out =>
        obtain ⟨hneed', hcoming'⟩ := hstage.out_reads hup
        have hstream := Stream.header (c := c) (sendKey c m .inn) []
        rw [← hstage.out_header, ← hneed'] at hstream
        simp only [sealAll] at hstream
        rw [← hcoming'] at hstream
        exact hstream
      | inn =>
        rw [ports_self, coming_of_read]
        · rw [hrest]
          exact .header (sendKey c m .out) (link.view .out).queued
        · exact hcomp.up
        · rfl
  · simp [Connection.copy, Peer.awaitFrame]

/-- A frame of an open connection has arrived. -/
theorem Good.frame_open (hm : ∀ s, (m s).Fits) (h : Good c m link)
    {send receive : Side → CipherState}
    {msgs : Side → List Bytes} (hstage : StageOpen c m link.view send receive msgs) {s : Side}
    (hcomp : Completes link s b w) :
    Good c m ((link.setWire s w).setEnd s
      (onFrame c (m s) ((link.ends s).copy [b] 0))) := by
  have htidy := h.tidy s
  have hsendable : ∀ msg ∈ msgs s, 2 ≤ msg.length ∧ msg.length ≤ lnMaxMsgLen := by
    intro msg hmsg
    have hqueued : (link.ends s.other).queued = (link.ends s).handed ++ msgs s := hstage.queued s
    exact (h.tidy s.other).sendable msg (by rw [hqueued]; exact List.mem_append_right _ hmsg)
  rcases (hstage.stream s hcomp.up).inversion with
    ⟨hheader, hneed, hcoming, hsend⟩ | ⟨r, msg, rest, hheader, hr, hmsgs, hneed, hcoming, hsend⟩
  · -- the length of a message
    cases hmsgs : msgs s with
    | nil =>
      rw [hmsgs] at hcoming
      exact (hcomp.not_reads_nil fun _ => ⟨hneed, hcoming⟩).elim
    | cons msg rest =>
      rw [hmsgs] at hcoming hsend hsendable
      obtain ⟨hmin, hmax⟩ := hsendable msg (List.mem_cons_self ..)
      rw [sealAll, List.append_assoc] at hcoming
      obtain ⟨hbuf, hrest⟩ := hcomp.first hneed hcoming (length_header hc _ _)
      have hres : onFrame c (m s) ((link.ends s).copy [b] 0) = _ :=
        onFrame_header hc hmin hmax (hstage.encryptor s) hbuf hheader
      rw [hres]
      refine ⟨?_, tidy_setEnd h.tidy ⟨fun _ => ?_, htidy.offset, htidy.sendable, htidy.long,
        htidy.faultless⟩⟩
      · rw [view_read link s w]
        swap
        · rfl
        refine .opened _ _ _ (hstage.advance (r := (receive s).opened c) (l := msg :: rest)
          rfl rfl rfl rfl (by rw [hmsgs]; rfl) fun _ => ?_)
        rw [coming_of_read, hrest, hsend]
        · have hlen : (resize ((link.ends s).copy [b] 0).peer.pendingReadBuffer
              (msg.length + 16) 0).length = msg.length + 16 := length_resize _ _ _
          have hstream := Stream.body (c := c) (receive s) msg rest
          rw [← hlen] at hstream
          exact hstream
        · exact hcomp.up
        · rfl
      · simp [Connection.copy, Peer.awaitFrame]
  · -- the message itself
    rw [hmsgs] at hsendable
    obtain ⟨hmin, hmax⟩ := hsendable msg (List.mem_cons_self ..)
    obtain ⟨hbuf, hrest⟩ := hcomp.first hneed hcoming (length_body hc _ _)
    have henc : (link.ends s).peer.channelEncryptor = ⟨_, .finished (send s) (r.opened c)⟩ :=
      hr ▸ hstage.encryptor s
    have hres : onFrame c (m s) ((link.ends s).copy [b] 0) = _ :=
      onFrame_body hc hmin hmax henc hbuf hheader
    rw [hres]
    -- whatever the node makes of the message, it has been read
    have hread : ∀ node, Good c m ((link.setWire s w).setEnd s { (link.ends s).copy [b] 0 with
        peer := ((link.ends s).copy [b] 0).peer.awaitFrame
          ⟨some (nodeIdOf c m s.other), .finished (send s) (r.next c)⟩
          (resize ((link.ends s).copy [b] 0).peer.pendingReadBuffer 18 0) true
        node := node
        handed := (link.ends s).handed ++ [msg] }) := by
      intro node
      refine ⟨?_, tidy_setEnd h.tidy ⟨fun _ => ?_, htidy.offset, htidy.sendable, htidy.long,
        htidy.faultless⟩⟩
      · rw [view_read link s w]
        swap
        · rfl
        refine .opened _ _ _ (hstage.advance (r := r.next c) (l := rest)
          rfl rfl rfl rfl ?_ fun _ => ?_)
        · rw [hmsgs]
          exact List.append_assoc (link.ends s).handed [msg] rest
        · rw [coming_of_read, hrest, hsend]
          · have hlen : (resize ((link.ends s).copy [b] 0).peer.pendingReadBuffer 18 0).length =
              18 := length_resize _ _ _
            have hstream := Stream.header (c := c) (r.next c) rest
            rw [← hlen] at hstream
            exact hstream
          · exact hcomp.up
          · rfl
      · simp [Connection.copy, Peer.awaitFrame]
    rw [onMessage]
    split
    case h_1 =>
      have hhalt := (hread (link.ends s).node).halt s .refused (by simp) (by simp)
        (.inr rfl)
      rw [Link.setEnd_setEnd, Link.setEnd_ends_self] at hhalt
      exact hhalt
    case h_2 node replies hreplies =>
      have hsends := (hread node).sends (s := s) (by rw [Link.setEnd_ends_self]; exact hcomp.up)
        (by rw [Link.setEnd_ends_self]; rfl) ((hm s).replies hreplies)
      rw [Link.setEnd_setEnd, Link.setEnd_ends_self] at hsends
      exact hsends

/-- **A frame is complete.** -/
theorem Good.frame (hm : ∀ s, (m s).Fits) (h : Good c m link) {s : Side}
    (hcomp : Completes link s b w) : Good c m ((link.setWire s w).setEnd s
      (onFrame c (m s) ((link.ends s).copy [b] 0))) := by
  cases h.inv with
  | one hstage =>
    cases s with
    | out => exact (hcomp.not_reads_nil hstage.out_reads).elim
    | inn => exact h.frame_one hc hstage hcomp
  | two hstage =>
    cases s with
    | out => exact h.frame_two hc hm hstage hcomp
    | inn => exact (hcomp.not_reads_nil hstage.inn_reads).elim
  | three hstage =>
    cases s with
    | out => exact (hcomp.not_reads_nil hstage.out_reads).elim
    | inn => exact h.frame_three hc hm hstage hcomp
  | opened send receive msgs hstage => exact h.frame_open hc hm hstage hcomp

/-- **A byte arrives.** -/
theorem Good.byte (hm : ∀ s, (m s).Fits) (h : Good c m link) {s : Side}
    (hwire : link.wire s = b :: w) :
    Good c m ((link.setWire s w).setEnd s (readPiece c (m s) (link.ends s) [b])) := by
  have htidy := h.tidy s
  by_cases hup : (link.ends s).down = none
  · have hpos := htidy.pos_lt hup
    rcases Nat.lt_or_ge ((link.ends s).peer.pendingReadBufferPos + [b].length)
      (link.ends s).peer.pendingReadBuffer.length with hlt | hge
    · -- the frame is not complete
      have hone : [b].length = 1 := rfl
      have hlen : (overwrite (link.ends s).peer.pendingReadBuffer
          (link.ends s).peer.pendingReadBufferPos [b]).length =
            (link.ends s).peer.pendingReadBuffer.length := length_overwrite (by omega)
      rw [readPiece_unfinished c (m s) hup hlt]
      refine ⟨?_, tidy_setEnd h.tidy ⟨fun _ => ?_, htidy.offset, htidy.sendable, htidy.long,
        htidy.faultless⟩⟩
      · rw [view_read link s w]
        swap
        · rfl
        have hport : ((link.ends s).copy [b]
            ((link.ends s).peer.pendingReadBufferPos + [b].length)).port w
              (link.ends s.other).unsent = link.view s := by
          have htake : (overwrite (link.ends s).peer.pendingReadBuffer
              (link.ends s).peer.pendingReadBufferPos [b]).take
                ((link.ends s).peer.pendingReadBufferPos + [b].length) =
              (link.ends s).peer.pendingReadBuffer.take
                (link.ends s).peer.pendingReadBufferPos ++ [b] := take_overwrite (by omega)
          simp only [Link.view, Connection.port, Connection.copy, Connection.received, hup, hwire,
            hlen, htake]
          simp
        rw [hport, ← eq_ports]
        exact h.inv
      · simp only [Connection.copy]
        rw [hlen]
        exact hlt
    · have hone : [b].length = 1 := rfl
      rw [readPiece_full c (m s) hup hpos (by omega)]
      exact h.frame hc hm ⟨hup, hwire, by omega⟩
  · -- nobody reads it
    rw [readPiece_down c (m s) hup]
    refine ⟨?_, tidy_setEnd h.tidy htidy⟩
    rw [view_read link s w]
    swap
    · rfl
    have hport : (link.ends s).port w (link.ends s.other).unsent = link.view s := by
      simp [Link.view, Connection.port, hup]
    rw [hport, ← eq_ports]
    exact h.inv

/-- **Bytes arrive.** -/
theorem Good.bytes (hm : ∀ s, (m s).Fits) (h : Good c m link) {s : Side} {data : Bytes}
    (hwire : link.wire s = data ++ w) :
    Good c m ((link.setWire s w).setEnd s (readEvent c (m s) (link.ends s) data)) := by
  rw [readEvent_eq_foldl]
  induction data generalizing link with
  | nil =>
    obtain rfl : link.wire s = w := hwire
    have hsame : (link.setWire s (link.wire s)).setEnd s (link.ends s) = link := by
      simp [Link.setEnd, Link.setWire]
    rw [List.foldl_nil, hsame]
    exact h
  | cons b data ih =>
    have hnext := ih (h.byte hc hm (s := s) (w := data ++ w) hwire) (by simp)
    simpa [Link.setEnd, Link.setWire] using hnext

end Frames

/-! ## Runs -/

/-- **What a node does by itself keeps the invariant.** -/
theorem Good.own {link : Link Sk Pk H} (h : Good c m link) (s : Side) {event : OwnEvent}
    (hfits : event.Fits) : Good c m (link.step c m (.own s event)) := by
  rw [Link.step]
  cases event with
  | send message =>
    rw [Connection.handleOwn]
    split
    case isTrue hready =>
      rw [← Link.setEnd_wire link s (enqueueMessage c (link.ends s) message), Link.setWire_nil]
      exact h.send hready.1 hready.2 hfits
    case isFalse =>
      rw [Link.setEnd_same, Link.setWire_nil]
      exact h
  | spaceAvail answers =>
    rw [Connection.handleOwn]
    split
    case isTrue => exact h.write (writeBufferSpaceAvail_writes (h.tidy s) answers)
    case isFalse =>
      rw [Link.setEnd_same, Link.setWire_nil]
      exact h
  | processEvents answers =>
    rw [Connection.handleOwn]
    split
    case isTrue => exact h.write (doAttemptWriteData_writes (h.tidy s) answers)
    case isFalse =>
      rw [Link.setEnd_same, Link.setWire_nil]
      exact h
  | close =>
    rw [Connection.handleOwn]
    split
    case isTrue =>
      have hhalt := h.halt s .closed (by simp) (by simp) (.inr rfl)
      rw [← Link.setEnd_wire link s ((link.ends s).stop .closed), Link.setWire_nil]
      exact hhalt
    case isFalse =>
      rw [Link.setEnd_same, Link.setWire_nil]
      exact h

/-- The connection starts with the first act on its way. -/
theorem connect_good (nodes : Side → H) : ∃ link, connect c m nodes = .ok link ∧ Good c m link := by
  refine ⟨_, rfl, .one ⟨rfl, rfl, fun s => ?_, fun _ => ⟨rfl, ?_⟩, fun _ => ⟨rfl, ?_⟩⟩, fun s => ?_⟩
  · cases s with
    | out => exact ⟨rfl, rfl, rfl⟩
    | inn => exact ⟨rfl, rfl, rfl⟩
  · rfl
  · exact List.append_nil _
  · cases s with
    | out => exact ⟨fun _ => by simp, Nat.zero_le _, by simp, by simp, by simp⟩
    | inn =>
      exact ⟨fun _ => by simp [newInboundConnection], Nat.zero_le _,
        by simp [newInboundConnection], by simp [newInboundConnection],
        by simp [newInboundConnection]⟩

/-- An end knows the other by its node id, or not at all. -/
theorem Inv.nodeId {v : Side → Port Sk Pk} (h : Inv c m v) (s : Side) :
    (v s).theirNodeId = none ∨ (v s).theirNodeId = some (nodeIdOf c m s.other) := by
  cases h with
  | one h => exact .inl (h.quiet s).unknown
  | two h => exact .inl (h.quiet s).unknown
  | three h =>
    cases s with
    | out => exact h.out_knows.symm.imp And.left id
    | inn => exact .inl h.inn_quiet.unknown
  | opened send receive msgs h => exact (h.knows s).symm.imp And.left id

/-- What an end has read is a beginning of what the other has queued. -/
theorem Inv.handed {v : Side → Port Sk Pk} (h : Inv c m v) (s : Side) :
    (v s).handed <+: (v s.other).queued := by
  cases h with
  | one h =>
    rw [(h.quiet s).handed]
    exact List.nil_prefix
  | two h =>
    rw [(h.quiet s).handed]
    exact List.nil_prefix
  | three h =>
    cases s with
    | out =>
      rw [h.out_handed]
      exact List.nil_prefix
    | inn =>
      rw [h.inn_quiet.handed]
      exact List.nil_prefix
  | opened send receive msgs h => exact ⟨msgs s, (h.queued s).symm⟩

/-- What the task of an end is at does not matter. -/
theorem Good.setTask {link : Link Sk Pk H} (h : Good c m link) (s : Side) (task : ReadTask) :
    Good c m (link.setTask s task) :=
  ⟨h.inv, h.tidy⟩

/-- **The task comes round.** -/
theorem Good.round {link : Link Sk Pk H} (h : Good c m link) (s : Side) :
    Good c m (link.step c m (.round s)) :=
  (h.pause s _).setTask s _

section Runs
variable (hc : c.Lawful)
include hc

/-- **What arrives is read, or not.** -/
theorem Good.receive (hm : ∀ s, (m s).Fits) {link : Link Sk Pk H} (h : Good c m link) (s : Side)
    (count : Nat) : Good c m (link.step c m (.receive s count)) := by
  rw [Link.step]
  cases (link.tasks s).reads with
  | none => exact h
  | some pauseRead =>
    have hwire := (List.take_append_drop (min count readBufferLength) (link.wire s)).symm
    have hread := h.bytes hc hm hwire
    have hfst := readRounds_fst c (m s) (link.ends s, pauseRead)
      ((link.wire s).take (min count readBufferLength))
    rw [readEvent_eq_feed, ← hfst] at hread
    exact hread.setTask s _

/-- **A step keeps the invariant.** -/
theorem Good.step (hm : ∀ s, (m s).Fits) {link : Link Sk Pk H} (h : Good c m link)
    {action : Action} (hfits : action.Fits) : Good c m (link.step c m action) := by
  cases action with
  | receive s count => exact h.receive hc hm s count
  | round s => exact h.round s
  | own s event => exact h.own s hfits

theorem Good.run (hm : ∀ s, (m s).Fits) {link : Link Sk Pk H} (h : Good c m link)
    {actions : List Action} (hfits : ∀ action ∈ actions, action.Fits) :
    Good c m (link.run c m actions) := by
  induction actions generalizing link with
  | nil => exact h
  | cons action actions ih =>
    obtain ⟨haction, hfits⟩ := List.forall_mem_cons.mp hfits
    exact ih (h.step hc hm haction) hfits

/-- An end that has less to read than the frame it is at has nothing to read, and has read all. -/
theorem Inv.idle {v : Side → Port Sk Pk} (h : Inv c m v) {s : Side} (hup : (v s).down = none)
    (hlen : (v s).coming.length < (v s).need) :
    (v s).coming = [] ∧ (v s).handed = (v s.other).queued := by
  cases h with
  | one h =>
    have hquiet : (v s).handed = (v s.other).queued := by
      rw [(h.quiet s).handed, (h.quiet s.other).queued]
    cases s with
    | out => exact ⟨(h.out_reads hup).2, hquiet⟩
    | inn =>
      obtain ⟨hneed, hcoming⟩ := h.inn_reads hup
      have hact : (firstAct c m).length = 50 := length_actOne _ _ hc
      rw [hneed, hcoming] at hlen
      omega
  | two h =>
    have hquiet : (v s).handed = (v s.other).queued := by
      rw [(h.quiet s).handed, (h.quiet s.other).queued]
    cases s with
    | out =>
      obtain ⟨hneed, hcoming⟩ := h.out_reads hup
      have hact : (secondAct c m).length = 50 := length_actTwo _ _ _ hc
      rw [hneed, hcoming] at hlen
      omega
    | inn => exact ⟨(h.inn_reads hup).2, hquiet⟩
  | three h =>
    cases s with
    | out => exact ⟨(h.out_reads hup).2, h.out_handed.trans h.inn_quiet.queued.symm⟩
    | inn =>
      obtain ⟨hneed, hcoming⟩ := h.inn_reads hup
      have hact : (thirdAct c m).length = 66 := length_actThree _ _ _ _ hc
      rw [hneed, hcoming, List.length_append] at hlen
      omega
  | opened send receive msgs h =>
    rcases (h.stream s hup).inversion with
      ⟨-, hneed, hcoming, -⟩ | ⟨r, msg, rest, -, -, -, hneed, hcoming, -⟩
    · cases hmsgs : msgs s with
      | nil =>
        have hqueued := h.queued s
        rw [hmsgs] at hcoming hqueued
        exact ⟨hcoming, by rw [hqueued, List.append_nil]⟩
      | cons msg rest =>
        have hheader := length_header hc (receive s) msg
        rw [hmsgs] at hcoming
        rw [hneed, hcoming, sealAll, List.length_append, List.length_append] at hlen
        omega
    · have hbody := length_body hc r msg
      rw [hneed, hcoming, List.length_append] at hlen
      omega

/-- An end for which nothing is on the way has read all that has been queued for it. -/
theorem Good.idle {link : Link Sk Pk H} (h : Good c m link) {s : Side}
    (hup : (link.ends s).down = none) (hwire : link.wire s = [])
    (hunsent : (link.ends s.other).unsent = []) :
    (link.view s).coming = [] ∧ (link.ends s).handed = (link.ends s.other).queued := by
  refine h.inv.idle hc (s := s) hup ?_
  have hpos := (h.tidy s).pos_lt hup
  simp only [Link.view, Connection.port, hup, hwire, hunsent, if_true, List.append_nil,
    Connection.received, List.length_take]
  omega

/-- **Messages arrive**: in every run of two nodes that are connected, whose messages fit in frames,
however the bytes are cut up and the writes and reads come in turn, and through every change of the
keys, each end has read a beginning of what the other has queued, and all of it if nothing is left
to be written or on the way.  Each knows the other by its node id, and a connection ends only by a
node's own choice. -/
theorem connection_delivers (hm : ∀ s, (m s).Fits) (nodes : Side → H) {actions : List Action}
    (hfits : ∀ action ∈ actions, action.Fits) :
    ∃ start, connect c m nodes = .ok start ∧ ∀ s, ∀ link, link = start.run c m actions →
      (link.ends s).handed <+: (link.ends s.other).queued ∧
      ((link.ends s).down = none → link.wire s = [] → (link.ends s.other).unsent = [] →
        (link.ends s).handed = (link.ends s.other).queued) ∧
      ((link.ends s).peer.theirNodeId = none ∨
        (link.ends s).peer.theirNodeId = some (nodeIdOf c m s.other)) ∧
      (link.ends s).down ∈ [none, some .secondConnection, some .refused, some .closed] := by
  obtain ⟨start, hstart, hgood⟩ := connect_good (c := c) (m := m) nodes
  refine ⟨start, hstart, fun s link hlink => ?_⟩
  have hlast : Good c m link := hlink ▸ hgood.run hc hm hfits
  refine ⟨hlast.inv.handed s, fun hup hwire hunsent => (hlast.idle hc hup hwire hunsent).2,
    hlast.inv.nodeId s, ?_⟩
  have htidy := hlast.tidy s
  cases hdown : (link.ends s).down with
  | none => simp
  | some reason =>
    cases reason with
    | fault fault => exact (htidy.faultless fault hdown).elim
    | shortMessage => exact (htidy.long hdown).elim
    | secondConnection => simp
    | refused => simp
    | closed => simp

end Runs

/-! ## Two nodes -/

/-- Keys of one byte, a sum for a hash, and a key stream that counts. -/
def toyNoise : NoiseCrypto UInt8 UInt8 where
  fromSecretKey a := a
  serialize a := 2 :: zeros 31 ++ [a]
  fromSlice bytes := bytes.getLast?
  sharedSecret a b := [a * b]
  sha256 message := BigEndian.toBytes 32 (BigEndian.ofBytes message)
  hmac key message :=
    BigEndian.toBytes 32 (BigEndian.ofBytes key * 257 + BigEndian.ofBytes message)
  chacha key nonce n := UInt8.ofNat (BigEndian.ofBytes key + BigEndian.ofBytes nonce + n)
  poly1305 key message :=
    BigEndian.toBytes 16 (BigEndian.ofBytes key * 257 + BigEndian.ofBytes message)

theorem toyNoise_lawful : toyNoise.Lawful where
  sharedSecret_comm a b := by simp [toyNoise, UInt8.mul_comm]
  length_serialize key := by simp [toyNoise]
  fromSlice_serialize key := by
    simp only [toyNoise]
    exact List.getLast?_concat
  length_poly1305 key message := by simp [toyNoise]

/-- A node that greets with an empty `Init` and answers a ping. -/
def toyManager (ourNodeSecret ephemeralKey : UInt8) : PeerManager UInt8 UInt8 Nat where
  ourNodeSecret := ourNodeSecret
  ephemeralKey := ephemeralKey
  init := ⟨[0, 16, 0, 0, 0, 0], by decide⟩
  insertNodeId connected _ := some (connected + 1)
  handleMessage node message :=
    if message.take 2 = [0, 18] then some (node, [⟨[0, 19], by decide⟩])
    else some (node, [])
  skips _ := false

/-- Two of them. -/
def toyManagers : Side → PeerManager UInt8 UInt8 Nat :=
  Side.choose (toyManager 17 33) (toyManager 18 34)

theorem toyManager_fits (ourNodeSecret ephemeralKey : UInt8) :
    (toyManager ourNodeSecret ephemeralKey).Fits where
  init := Nat.le_of_ble_eq_true rfl
  replies {node message node' replies} h reply hreply := by
    rw [toyManager] at h
    dsimp only at h
    split at h
    · cases h
      rw [List.mem_singleton.mp hreply]
      decide
    · cases h
      cases hreply

theorem toyManagers_fits (s : Side) : (toyManagers s).Fits := by
  cases s with
  | out => exact toyManager_fits 17 33
  | inn => exact toyManager_fits 18 34

/-- A ping. -/
def toyPing : WireMessage := ⟨[0, 18], by decide⟩

/-- They connect, and the one that connects sends a ping; the bytes come in odd pieces. -/
def toyActions : List Action :=
  [.receive .inn 20, .round .inn, .receive .inn 30, .round .inn, .own .inn (.processEvents [7]),
    .own .inn (.spaceAvail [100]), .round .inn, .receive .out 50, .round .out,
    .own .out (.send toyPing), .own .out (.processEvents [66, 40, 36]),
    .receive .inn 67, .round .inn, .receive .inn 10, .round .inn, .receive .inn 65,
    .own .inn (.processEvents [40, 36]), .receive .out 19, .round .out, .receive .out 57]

theorem toyActions_fits : ∀ action ∈ toyActions, action.Fits := by
  simp [toyActions, toyPing, Action.Fits, OwnEvent.Fits, WireMessage.Fits, lnMaxMsgLen]

/-- Then 600 pings, with two nonces each, so that the keys change on the way. -/
def toyPings : List Action := List.replicate 600 (.own .out (.send toyPing))

/-- The next of them are read, and answered. -/
def toyReads : List Action :=
  [.round .inn, .receive .inn 9000, .round .inn,
    .own .inn (.processEvents (List.replicate 300 36))]

/-- The socket takes some of them, and the rest once the other end has answered. -/
def toyAnswers : List Action :=
  .own .out (.processEvents (List.replicate 500 36 ++ [35])) ::
    (toyReads ++ (toyReads ++ toyReads)) ++
    [.own .out (.spaceAvail (List.replicate 600 36))] ++ toyReads ++
    [.round .out, .receive .out 9000, .round .out, .receive .out 9000, .round .out,
      .receive .out 9000]

theorem toyAnswers_fits : ∀ action ∈ toyAnswers, action.Fits := by
  simp only [toyAnswers, toyReads, List.cons_append, List.nil_append, List.forall_mem_cons,
    Action.Fits, OwnEvent.Fits, List.not_mem_nil, IsEmpty.forall_iff, implies_true, and_self]

theorem connection_delivers_pings :
    ∃ start, connect toyNoise toyManagers (fun _ => 0) = .ok start ∧
      ∀ s, ∀ link, link = start.run toyNoise toyManagers (toyActions ++ (toyPings ++ toyAnswers)) →
        (link.ends s).handed <+: (link.ends s.other).queued ∧
        ((link.ends s).down = none → link.wire s = [] → (link.ends s.other).unsent = [] →
          (link.ends s).handed = (link.ends s.other).queued) ∧
        ((link.ends s).peer.theirNodeId = none ∨
          (link.ends s).peer.theirNodeId = some (nodeIdOf toyNoise toyManagers s.other)) ∧
        (link.ends s).down ∈ [none, some .secondConnection, some .refused, some .closed] := by
  refine connection_delivers toyNoise_lawful toyManagers_fits (fun _ => 0) fun action hmem => ?_
  rcases List.mem_append.mp hmem with hmem | hmem
  · exact toyActions_fits action hmem
  rcases List.mem_append.mp hmem with hmem | hmem
  · rw [List.eq_of_mem_replicate hmem]
    simp [toyPing, Action.Fits, OwnEvent.Fits, WireMessage.Fits, lnMaxMsgLen]
  · exact toyAnswers_fits action hmem

-- both have read the other's `Init`, and then the ping and the pong
example : (connect toyNoise toyManagers fun _ => 0).toOption.map
    (fun start => ((start.run toyNoise toyManagers toyActions).ends .inn).handed) =
      some [[0, 16, 0, 0, 0, 0], [0, 18]] := by decide +kernel

example : (connect toyNoise toyManagers fun _ => 0).toOption.map
    (fun start => ((start.run toyNoise toyManagers toyActions).ends .out).handed) =
      some [[0, 16, 0, 0, 0, 0], [0, 19]] := by decide +kernel

end Noise
end HiddenLightning
