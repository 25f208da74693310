import HiddenLightning.FrameBuffers
import HiddenLightning.PeerChannelEncryptor

/-! # A connection with a peer

The peer manager keeps, for every connection, the encryptor, the buffers that are still to be
written and the frame that is being read.  What comes in is copied into the read buffer until that
is full (`doReadEvent`); then it is an act of the handshake, the length of a message or a message,
depending on where the connection is (`onFrame`).  What goes out is queued, and written as far as
the socket takes it (`doAttemptWriteData`).  While the socket refuses, or too much is queued, the
task of the connection is not to read (`ReadTask`).

`read_in_any_pieces` says that it does not matter how the bytes arrive in pieces. -/
namespace HiddenLightning
namespace Noise
open KeyStreams FrameBuffers

/-! ## Connections -/

/-- A message as `wire::write` encodes it: it has its type in front. -/
structure WireMessage where
  bytes : Bytes
  two_le : 2 ≤ bytes.length

/-- The message fits in one frame.  Nothing in `enqueue_message` sees to it. -/
def WireMessage.Fits (message : WireMessage) : Prop := message.bytes.length ≤ lnMaxMsgLen

instance (message : WireMessage) : Decidable message.Fits :=
  inferInstanceAs (Decidable (message.bytes.length ≤ lnMaxMsgLen))

/-- The fields of `Peer` that the bytes of a connection go through. -/
structure Peer (Sk Pk : Type) where
  channelEncryptor : PeerChannelEncryptor Sk Pk
  theirNodeId : Option Pk
  pendingOutboundBuffer : List Bytes
  pendingOutboundBufferFirstMsgOffset : Nat
  awaitingWriteEvent : Bool
  pendingReadBuffer : Bytes
  pendingReadBufferPos : Nat
  pendingReadIsHeader : Bool

/-- Why a connection has ended. -/
inductive Stop where
  /-- A panic, or an error of the encryptor. -/
  | fault (fault : Fault)
  /-- A message of less than two bytes was announced. -/
  | shortMessage
  /-- There is a connection with that node already. -/
  | secondConnection
  /-- A message was not accepted. -/
  | refused
  /-- The node has closed the connection. -/
  | closed
  deriving DecidableEq, Repr

/-- What the rest of the node does: its state is `H`. -/
structure PeerManager (Sk Pk H : Type) where
  ourNodeSecret : Sk
  /-- What `get_ephemeral_key` returns for this connection. -/
  ephemeralKey : Sk
  /-- The `Init` message a node sends first. -/
  init : WireMessage
  /-- `insert_node_id!`: `none` if the node is connected already. -/
  insertNodeId : H → Pk → Option H
  /-- `wire::read` and `handle_message`, with the messages that are sent in answer.  `none` is an
  error that ends the connection. -/
  handleMessage : H → Bytes → Option (H × List WireMessage)
  /-- `wire::read` fails, and the next bytes are read. -/
  skips : Bytes → Bool

/-- What the node sends by itself fits. -/
structure PeerManager.Fits (m : PeerManager Sk Pk H) : Prop where
  init : m.init.Fits
  replies : ∀ {node message node' replies}, m.handleMessage node message = some (node', replies) →
    ∀ reply ∈ replies, reply.Fits

/-- A connection, with the node behind it and what has gone through it. -/
structure Connection (Sk Pk H : Type) where
  peer : Peer Sk Pk
  node : H
  /-- The messages given to `enqueue_message`. -/
  queued : List Bytes
  /-- The messages that were read, given to `wire::read`. -/
  handed : List Bytes
  down : Option Stop
  /-- `read_paused` of the task that reads from the socket. -/
  readPaused : Bool

variable {Sk Pk H : Type} (c : NoiseCrypto Sk Pk) (m : PeerManager Sk Pk H)

/-- The connection ends. -/
def Connection.stop (conn : Connection Sk Pk H) (reason : Stop) : Connection Sk Pk H :=
  { conn with down := some reason }

/-- `new_outbound_connection`: the connection, and the bytes to send. -/
def newOutboundConnection (node : H) (theirNodeId : Pk) :
    Except Fault (Connection Sk Pk H × Bytes) := do
  let (encryptor, res) ← getActOne c (newOutbound c theirNodeId m.ephemeralKey)
  return (⟨⟨encryptor, none, [], 0, false, zeros 50, 0, false⟩, node, [], [], none, false⟩, res)

/-- `new_inbound_connection`. -/
def newInboundConnection (node : H) : Connection Sk Pk H :=
  ⟨⟨newInbound c m.ourNodeSecret, none, [], 0, false, zeros 50, 0, false⟩, node, [], [], none,
    false⟩

/-! ## Writing -/

/-- A buffer is queued. -/
def Peer.pushBack (peer : Peer Sk Pk) (buffer : Bytes) : Peer Sk Pk :=
  { peer with pendingOutboundBuffer := peer.pendingOutboundBuffer ++ [buffer] }

/-- `enqueue_message`. -/
def enqueueMessage (conn : Connection Sk Pk H) (message : WireMessage) : Connection Sk Pk H :=
  -- the call before has panicked
  if conn.down.isSome then conn
  else
    let conn := { conn with queued := conn.queued ++ [message.bytes] }
    -- the node id is logged, by `their_node_id.unwrap()`
    if conn.peer.theirNodeId.isNone then conn.stop (.fault .panic)
    else
      match encryptMessage c conn.peer.channelEncryptor message.bytes with
      | .error fault => conn.stop (.fault fault)
      | .ok (encryptor, buffer) =>
        { conn with peer := { conn.peer with channelEncryptor := encryptor }.pushBack buffer }

/-- `OUTBOUND_BUFFER_LIMIT_READ_PAUSE`. -/
def outboundBufferLimitReadPause : Nat := 10

/-- What `do_attempt_write_data` leaves of the queue, and the bytes that were sent. -/
structure Written where
  queue : List Bytes
  offset : Nat
  awaiting : Bool
  readPaused : Bool
  sent : Bytes

/-- The loop of `do_attempt_write_data`.  `answers` are how many bytes the socket takes each time it
is asked to send: `send_data` resumes reading if there are few buffers left, and pauses it if the
socket does not take all. -/
def writeLoop : (readPaused : Bool) → List Bytes → (offset : Nat) → (answers : List Nat) → Written
  | readPaused, [], offset, _ => ⟨[], offset, false, readPaused, []⟩
  | readPaused, nextBuff :: queue, offset, answers =>
    let shouldBeReading := decide (queue.length + 1 < outboundBufferLimitReadPause)
    let pending := nextBuff.drop offset
    let dataSent := min (answers.headD 0) pending.length
    if offset + dataSent = nextBuff.length then
      let rest := writeLoop (readPaused && !shouldBeReading) queue 0 answers.tail
      { rest with sent := pending.take dataSent ++ rest.sent }
    else ⟨nextBuff :: queue, offset + dataSent, true, true, pending.take dataSent⟩

/-- The connection, with what is left of the queue. -/
def Connection.wrote (conn : Connection Sk Pk H) (w : Written) : Connection Sk Pk H :=
  { conn with
    peer := { conn.peer with
      pendingOutboundBuffer := w.queue
      pendingOutboundBufferFirstMsgOffset := w.offset
      awaitingWriteEvent := w.awaiting }
    readPaused := w.readPaused }

/-- `do_attempt_write_data`: the connection, and the bytes that were sent. -/
def doAttemptWriteData (conn : Connection Sk Pk H) (answers : List Nat) :
    Connection Sk Pk H × Bytes :=
  if conn.peer.awaitingWriteEvent then (conn, [])
  else
    let w := writeLoop conn.readPaused conn.peer.pendingOutboundBuffer
      conn.peer.pendingOutboundBufferFirstMsgOffset answers
    (conn.wrote w, w.sent)

/-- The connection, waiting or not for the socket to have space again. -/
def Connection.setAwaiting (conn : Connection Sk Pk H) (awaiting : Bool) : Connection Sk Pk H :=
  { conn with peer := { conn.peer with awaitingWriteEvent := awaiting } }

/-- `write_buffer_space_avail`. -/
def writeBufferSpaceAvail (conn : Connection Sk Pk H) (answers : List Nat) :
    Connection Sk Pk H × Bytes :=
  doAttemptWriteData (conn.setAwaiting false) answers

/-! ## Reading -/

/-- The connection once the handshake is done: the node is entered and greeted. -/
def finishHandshake (conn : Connection Sk Pk H) (theirNodeId : Pk) : Connection Sk Pk H :=
  match m.insertNodeId conn.node theirNodeId with
  | none => { conn with peer := { conn.peer with theirNodeId := none } }.stop .secondConnection
  | some node =>
    enqueueMessage c
      { conn with peer := { conn.peer with theirNodeId := some theirNodeId }, node := node } m.init

/-- A message has been read. -/
def onMessage (conn : Connection Sk Pk H) (message : Bytes) : Connection Sk Pk H :=
  match m.handleMessage conn.node message with
  | none => { conn with handed := conn.handed ++ [message] }.stop .refused
  | some (node, replies) =>
    replies.foldl (enqueueMessage c)
      { conn with node := node, handed := conn.handed ++ [message] }

/-- The peer, waiting for another frame. -/
def Peer.awaitFrame (peer : Peer Sk Pk) (encryptor : PeerChannelEncryptor Sk Pk) (buffer : Bytes)
    (isHeader : Bool) : Peer Sk Pk :=
  { peer with
    channelEncryptor := encryptor
    pendingReadBuffer := buffer
    pendingReadIsHeader := isHeader }

/-- What `do_read_event` does when the read buffer is full. -/
def onFrame (conn : Connection Sk Pk H) : Connection Sk Pk H :=
  let peer := conn.peer
  match peer.channelEncryptor.getNoiseStep with
  | .actOne =>
    match processActOneWithKeys c peer.channelEncryptor peer.pendingReadBuffer m.ourNodeSecret
        m.ephemeralKey with
    | .error fault => conn.stop (.fault fault)
    | .ok (encryptor, actTwo) =>
      { conn with
        peer := (peer.awaitFrame encryptor (zeros 66) peer.pendingReadIsHeader).pushBack actTwo }
  | .actTwo =>
    match processActTwo c peer.channelEncryptor peer.pendingReadBuffer m.ourNodeSecret with
    | .error fault => conn.stop (.fault fault)
    | .ok (encryptor, actThree, theirNodeId) =>
      finishHandshake c m
        { conn with peer := (peer.awaitFrame encryptor (zeros 18) true).pushBack actThree }
        theirNodeId
  | .actThree =>
    match processActThree c peer.channelEncryptor peer.pendingReadBuffer with
    | .error fault => conn.stop (.fault fault)
    | .ok (encryptor, theirNodeId) =>
      finishHandshake c m { conn with peer := peer.awaitFrame encryptor (zeros 18) true }
        theirNodeId
  | .noiseComplete =>
    if peer.pendingReadIsHeader then
      match decryptLengthHeader c peer.channelEncryptor peer.pendingReadBuffer with
      | .error fault => conn.stop (.fault fault)
      | .ok (encryptor, msgLen) =>
        if msgLen < 2 then conn.stop .shortMessage
        else
          { conn with
            peer :=
              peer.awaitFrame encryptor (resize peer.pendingReadBuffer (msgLen + 16) 0) false }
    else
      match decryptMessage c peer.channelEncryptor peer.pendingReadBuffer with
      | .error fault => conn.stop (.fault fault)
      | .ok (encryptor, msgData) =>
        -- `assert!(msg_data.len() >= 2)`
        if msgData.length < 2 then conn.stop (.fault .panic)
        else
          onMessage c m
            { conn with
              peer := peer.awaitFrame encryptor (resize peer.pendingReadBuffer 18 0) true }
            msgData

/-- How many bytes the read buffer still takes. -/
def Connection.room (conn : Connection Sk Pk H) : Nat :=
  if conn.down.isSome then 0
  else conn.peer.pendingReadBuffer.length - conn.peer.pendingReadBufferPos

/-- One round of the loop of `do_read_event`, with the bytes that are copied. -/
def readPiece (conn : Connection Sk Pk H) (piece : Bytes) : Connection Sk Pk H :=
  let peer := conn.peer
  let pos := peer.pendingReadBufferPos
  if conn.down.isSome then conn
  -- `assert!(peer.pending_read_buffer.len() > peer.pending_read_buffer_pos)`
  else if peer.pendingReadBuffer.length ≤ pos then conn.stop (.fault .panic)
  else if pos + piece.length = peer.pendingReadBuffer.length then
    onFrame c m
      { conn with
        peer := { peer with
          pendingReadBuffer := overwrite peer.pendingReadBuffer pos piece
          pendingReadBufferPos := 0 } }
  else
    { conn with
      peer := { peer with
        pendingReadBuffer := overwrite peer.pendingReadBuffer pos piece
        pendingReadBufferPos := pos + piece.length } }

/-- `pause_read`, where it is found: there are many buffers still to be written. -/
def Peer.pausesRead (peer : Peer Sk Pk) : Bool :=
  outboundBufferLimitReadPause < peer.pendingOutboundBuffer.length

/-- One round, with `pause_read`.  This is found before a message is handled, and not at all if
`wire::read` fails on the message. -/
def readRound (state : Connection Sk Pk H × Bool) (piece : Bytes) : Connection Sk Pk H × Bool :=
  let (conn, pauseRead) := state
  let next := readPiece c m conn piece
  match next.handed.drop conn.handed.length with
  | [] => (next, next.peer.pausesRead)
  | message :: _ => (next, if m.skips message then pauseRead else conn.peer.pausesRead)

/-- The rounds of `do_read_event`, from what has been found of `pause_read` so far. -/
def readRounds (state : Connection Sk Pk H × Bool) (data : Bytes) : Connection Sk Pk H × Bool :=
  feed (fun state => state.1.room) (readRound c m) data.length state data

/-- `do_read_event`: the connection, and whether reading is to be paused. -/
def doReadEvent (conn : Connection Sk Pk H) (data : Bytes) : Connection Sk Pk H × Bool :=
  readRounds c m (conn, false) data

/-- The connection after `read_event`. -/
def readEvent (conn : Connection Sk Pk H) (data : Bytes) : Connection Sk Pk H :=
  (doReadEvent c m conn data).1

/-- The length of the buffer that `schedule_read` reads into. -/
def readBufferLength : Nat := 8192

/-- Where the task that reads from the socket is, in the loop of `schedule_read`. -/
inductive ReadTask where
  /-- In `select!`.  It reads if reading was not paused when it came there.  A pause since then wakes
  it, but bytes may be read first. -/
  | waiting (reads : Bool)
  /-- In `read_event`, or behind it: `pause_read` is not recorded yet. -/
  | reading (pauseRead : Bool)
deriving DecidableEq

/-- What has been found of `pause_read` when bytes are read; `none` if they are not. -/
def ReadTask.reads : ReadTask → Option Bool
  | .waiting true => some false
  | .waiting false => none
  -- more of the same buffer, whose length is not counted
  | .reading pauseRead => some pauseRead

/-- Reading is to be paused, and that is not recorded yet. -/
def ReadTask.pauses : ReadTask → Bool
  | .waiting _ => false
  | .reading pauseRead => pauseRead

/-- The loop of `schedule_read` comes round: `pause_read` is recorded, and until the task is woken
it reads or not. -/
def scheduleRead (conn : Connection Sk Pk H) (task : ReadTask) : Connection Sk Pk H × ReadTask :=
  ({ conn with readPaused := conn.readPaused || task.pauses },
    .waiting (!(conn.readPaused || task.pauses)))

/-! ## Events -/

/-- What a node does with a connection, or what its socket asks of it. -/
inductive OwnEvent where
  /-- The node has a message for the peer. -/
  | send (message : WireMessage)
  /-- `write_buffer_space_avail`. -/
  | spaceAvail (answers : List Nat)
  /-- `process_events`, as far as it writes. -/
  | processEvents (answers : List Nat)
  /-- The node disconnects the peer, or the socket has closed. -/
  | close

/-- A message that is sent fits in one frame. -/
def OwnEvent.Fits : OwnEvent → Prop
  | .send message => message.Fits
  | _ => True

/-- What happens to a connection. -/
inductive Event where
  /-- `read_event`. -/
  | read (data : Bytes)
  | own (event : OwnEvent)

/-- One event of the node's own, with the bytes that are sent.  A connection that has ended is not
there any more, and a node does not send to a peer before the handshake is done. -/
def Connection.handleOwn (conn : Connection Sk Pk H) : OwnEvent → Connection Sk Pk H × Bytes
  | .send message =>
    if conn.down = none ∧ conn.peer.channelEncryptor.isReadyForEncryption then
      (enqueueMessage c conn message, [])
    else (conn, [])
  | .spaceAvail answers =>
    if conn.down = none then writeBufferSpaceAvail conn answers else (conn, [])
  | .processEvents answers =>
    if conn.down = none then doAttemptWriteData conn answers else (conn, [])
  | .close => (if conn.down = none then conn.stop .closed else conn, [])

/-- One event. -/
def Connection.handle (conn : Connection Sk Pk H) : Event → Connection Sk Pk H × Bytes
  | .read data => (readEvent c m conn data, [])
  | .own event => conn.handleOwn c event

/-- Any number of events. -/
def Connection.handleAll (conn : Connection Sk Pk H) (events : List Event) : Connection Sk Pk H :=
  events.foldl (fun conn event => (conn.handle c m event).1) conn

/-! ## Pieces -/

theorem readPiece_down {conn : Connection Sk Pk H} (h : conn.down ≠ none) (piece : Bytes) :
    readPiece c m conn piece = conn := by
  rw [readPiece, if_pos (Option.isSome_iff_ne_none.mpr h)]

/-- The connection, with some bytes of the next frame copied. -/
def Connection.copy (conn : Connection Sk Pk H) (piece : Bytes) (pos : Nat) :
    Connection Sk Pk H :=
  { conn with
    peer := { conn.peer with
      pendingReadBuffer :=
        overwrite conn.peer.pendingReadBuffer conn.peer.pendingReadBufferPos piece
      pendingReadBufferPos := pos } }

/-- A round that does not complete the frame. -/
theorem readPiece_unfinished {conn : Connection Sk Pk H} {piece : Bytes} (hup : conn.down = none)
    (h : conn.peer.pendingReadBufferPos + piece.length < conn.peer.pendingReadBuffer.length) :
    readPiece c m conn piece =
      conn.copy piece (conn.peer.pendingReadBufferPos + piece.length) := by
  rw [readPiece, if_neg (by simp [hup]), if_neg (by omega), if_neg (by omega)]
  rfl

/-- A round that does. -/
theorem readPiece_full {conn : Connection Sk Pk H} {piece : Bytes} (hup : conn.down = none)
    (hpos : conn.peer.pendingReadBufferPos < conn.peer.pendingReadBuffer.length)
    (h : conn.peer.pendingReadBufferPos + piece.length = conn.peer.pendingReadBuffer.length) :
    readPiece c m conn piece = onFrame c m (conn.copy piece 0) := by
  rw [readPiece, if_neg (by simp [hup]), if_neg (by omega), if_pos h]
  rfl

theorem room_up {conn : Connection Sk Pk H} (hup : conn.down = none) : conn.room =
    conn.peer.pendingReadBuffer.length - conn.peer.pendingReadBufferPos := by
  simp [Connection.room, hup]

theorem up_of_room {conn : Connection Sk Pk H} (h : 0 < conn.room) : conn.down = none := by
  by_contra hdown
  rw [Connection.room, if_pos (Option.isSome_iff_ne_none.mpr hdown)] at h
  omega

/-- Without room, the first assertion fails if the connection has not ended already. -/
theorem readPiece_of_no_room {conn : Connection Sk Pk H} (h : conn.room = 0) (piece : Bytes) :
    readPiece c m conn piece = conn ∧ conn.down ≠ none ∨
      readPiece c m conn piece = conn.stop (.fault .panic) := by
  by_cases hup : conn.down = none
  · right
    rw [room_up hup] at h
    rw [readPiece, if_neg (by simp [hup]), if_pos (by omega)]
  · exact .inl ⟨readPiece_down c m hup piece, hup⟩

/-- **Bytes that fit may as well come in two parts.** -/
theorem splits_readPiece : Splits Connection.room (readPiece c m) where
  put_append conn front back hfront hback hlen := by
    have hf : 0 < front.length := List.length_pos_iff.mpr hfront
    have hb : 0 < back.length := List.length_pos_iff.mpr hback
    have hroom : 0 < conn.room := by omega
    have hup := up_of_room hroom
    rw [room_up hup] at hlen
    have hcopy : ∀ pos, conn.copy (front ++ back) pos =
        (conn.copy front (conn.peer.pendingReadBufferPos + front.length)).copy back pos := by
      intro pos
      simp only [Connection.copy]
      rw [overwrite_append (by omega)]
    have hfirst : readPiece c m conn front =
        conn.copy front (conn.peer.pendingReadBufferPos + front.length) :=
      readPiece_unfinished c m hup (by omega)
    rw [hfirst]
    -- the connection in between, as far as the next round looks at it
    generalize hmid : conn.copy front (conn.peer.pendingReadBufferPos + front.length) = mid
      at hcopy ⊢
    have hmidUp : mid.down = none := hmid ▸ hup
    have hmidPos : mid.peer.pendingReadBufferPos =
        conn.peer.pendingReadBufferPos + front.length := hmid ▸ rfl
    have hmidLen : mid.peer.pendingReadBuffer.length = conn.peer.pendingReadBuffer.length :=
      hmid ▸ length_overwrite (by omega)
    have hlen' : (front ++ back).length = front.length + back.length := List.length_append
    rcases Nat.lt_or_ge (conn.peer.pendingReadBufferPos + (front ++ back).length)
      conn.peer.pendingReadBuffer.length with h | h
    · rw [readPiece_unfinished c m hup h, hcopy, readPiece_unfinished c m hmidUp (by omega),
        hmidPos, hlen', Nat.add_assoc]
    · rw [readPiece_full c m hup (by omega) (by omega), hcopy,
        readPiece_full c m hmidUp (by omega) (by omega)]
  room_put conn piece hpiece hlen := by
    have hroom : 0 < conn.room := by omega
    have hup := up_of_room hroom
    rw [room_up hup] at hlen ⊢
    have hcopyUp : (conn.copy piece (conn.peer.pendingReadBufferPos + piece.length)).down = none :=
      hup
    rw [readPiece_unfinished c m hup (by omega), room_up hcopyUp]
    simp only [Connection.copy]
    rw [length_overwrite (by omega)]
    omega
  put_full conn piece h := by
    by_cases hup : conn.down = none
    · rw [room_up hup] at h
      rw [readPiece, readPiece, if_neg (by simp [hup]), if_pos (by omega), if_neg (by simp [hup]),
        if_pos (by omega)]
    · rw [readPiece_down c m hup, readPiece_down c m hup]
  room_full conn h := by
    rcases readPiece_of_no_room c m h [] with ⟨heq, -⟩ | heq
    · rw [heq, h]
    · rw [heq]
      rfl
  put_put_full conn h := by
    rcases readPiece_of_no_room c m h [] with ⟨heq, -⟩ | heq
    · rw [heq, heq]
    · rw [heq, readPiece_down c m (by simp [Connection.stop])]

theorem readRound_fst (state : Connection Sk Pk H × Bool) (piece : Bytes) :
    (readRound c m state piece).1 = readPiece c m state.1 piece := by
  obtain ⟨conn, pauseRead⟩ := state
  rw [readRound]
  dsimp only
  split
  · rfl
  · rfl

/-- The connection does not depend on `pause_read`. -/
theorem readRounds_fst (state : Connection Sk Pk H × Bool) (data : Bytes) :
    (readRounds c m state data).1 =
      feed Connection.room (readPiece c m) data.length state.1 data :=
  feed_map Prod.fst (fun _ => rfl) (fun state piece => (readRound_fst c m state piece).symm)
    data.length state data

theorem readEvent_eq_feed (conn : Connection Sk Pk H) (data : Bytes) :
    readEvent c m conn data = feed Connection.room (readPiece c m) data.length conn data :=
  readRounds_fst c m (conn, false) data

theorem readEvent_eq_foldl (conn : Connection Sk Pk H) (data : Bytes) :
    readEvent c m conn data = data.foldl (fun conn b => readPiece c m conn [b]) conn := by
  rw [readEvent_eq_feed]
  exact (splits_readPiece c m).feed_eq_foldl (Nat.le_refl _)

/-- **It does not matter in which pieces the bytes arrive**, whatever the bytes are: the connection
ends up in the same state, with the same answers queued and the same messages read. -/
theorem read_in_any_pieces (conn : Connection Sk Pk H) (pieces : List Bytes) :
    pieces.foldl (readEvent c m) conn = readEvent c m conn pieces.flatten := by
  induction pieces generalizing conn with
  | nil => rfl
  | cons piece pieces ih =>
    rw [List.foldl_cons, ih, List.flatten_cons, readEvent_eq_feed, readEvent_eq_feed,
      readEvent_eq_feed]
    exact ((splits_readPiece c m).feed_append conn piece pieces.flatten).symm

/-! ## Messages that are sent -/

/-- The connection, with a message sealed and queued. -/
def Connection.queue (conn : Connection Sk Pk H) (nodeId : Option Pk) (s r : CipherState)
    (message : Bytes) : Connection Sk Pk H :=
  { conn with
    peer := { conn.peer with channelEncryptor := ⟨nodeId, .finished (s.next c) r⟩ }.pushBack
      (header c s message ++ body c s message)
    queued := conn.queued ++ [message] }

theorem enqueueMessage_finished {conn : Connection Sk Pk H} (hup : conn.down = none)
    {nodeId : Option Pk} {s r : CipherState}
    (h : conn.peer.channelEncryptor = ⟨nodeId, .finished s r⟩)
    (hid : conn.peer.theirNodeId.isSome) {message : WireMessage} (hfits : message.Fits) :
    enqueueMessage c conn message = conn.queue c nodeId s r message.bytes := by
  have hrunning : ¬conn.down.isSome := by simp [hup]
  have hknown : ¬conn.peer.theirNodeId.isNone := by
    rw [Option.isNone_iff_eq_none]
    exact Option.isSome_iff_ne_none.mp hid
  rw [enqueueMessage, if_neg hrunning]
  dsimp only
  rw [if_neg hknown, h, encryptMessage_finished c hfits]
  rfl

theorem exists_finished {e : PeerChannelEncryptor Sk Pk} (h : e.isReadyForEncryption = true) :
    ∃ nodeId s r, e = ⟨nodeId, .finished s r⟩ := by
  obtain ⟨nodeId, state⟩ := e
  cases state with
  | inProgress state directional bidirectional => cases h
  | finished s r => exact ⟨nodeId, s, r, rfl⟩

end Noise
end HiddenLightning
