import Mathlib.Logic.Function.Basic
import HiddenLightning.PeerConnection

/-! # Two peers and the bytes between them

One node connects to another.  Either may queue messages at any time once it has finished its part
of the handshake, its socket takes some bytes whenever it likes, and what has been sent arrives in
pieces of any length, and is read unless reading is paused (`Link.step`).  The node may queue and
write in the middle of a read event, and between its end and the pause it has asked for.

What an end still has to read is what it has of the frame it is reading, then the bytes on the wire,
then what the other end has not written yet.  Seen like this (`view`) the writes, and the reads that
do not complete a frame, change nothing.  The invariant (`Inv`) is about the view: it says, for each
of the three acts and for the open connection, what is still to come for either end.  From it
follows that each end reads the messages of the other, in order and without a gap
(`connection_delivers`). -/
namespace HiddenLightning
namespace Noise
open KeyStreams FrameBuffers

/-- The end that connects, and the end that is connected to. -/
inductive Side where
  | out
  | inn
  deriving DecidableEq, Repr

/-- The other end. -/
def Side.other : Side → Side
  | .out => .inn
  | .inn => .out

/-- Something for each end. -/
def Side.choose {α : Type} (out inn : α) : Side → α
  | .out => out
  | .inn => inn

@[simp] theorem Side.other_other (s : Side) : s.other.other = s := by cases s <;> rfl

@[simp] theorem Side.other_ne (s : Side) : s.other ≠ s := by cases s <;> simp [Side.other]

@[simp] theorem Side.ne_other (s : Side) : s ≠ s.other := fun h => s.other_ne h.symm

theorem Side.eq_or_eq_other (t s : Side) : t = s ∨ t = s.other := by
  cases s <;> cases t <;> simp [Side.other]

/-- The two ends, the bytes that are on their way to each, and the tasks that read them. -/
structure Link (Sk Pk H : Type) where
  ends : Side → Connection Sk Pk H
  wire : Side → Bytes
  tasks : Side → ReadTask

variable {Sk Pk H : Type} (c : NoiseCrypto Sk Pk) (m : Side → PeerManager Sk Pk H)

/-- The connection is made: the first act is on its way. -/
def connect (nodes : Side → H) : Except Fault (Link Sk Pk H) := do
  let (conn, actOne) ← newOutboundConnection c (m .out) (nodes .out)
    (c.fromSecretKey (m .inn).ourNodeSecret)
  return {
    ends := fun
      | .out => conn
      | .inn => newInboundConnection c (m .inn) (nodes .inn)
    wire := fun
      | .out => []
      | .inn => actOne
    tasks := fun _ => .waiting true }

/-- What can happen. -/
inductive Action where
  /-- The next bytes arrive, as many as these. -/
  | receive (side : Side) (count : Nat)
  /-- The loop of the task that reads comes round. -/
  | round (side : Side)
  | own (side : Side) (event : OwnEvent)

/-- A message that is sent fits in one frame. -/
def Action.Fits : Action → Prop
  | .own _ event => event.Fits
  | _ => True

/-- Another state of one end. -/
def Link.setEnd (link : Link Sk Pk H) (s : Side) (conn : Connection Sk Pk H) : Link Sk Pk H :=
  { link with ends := Function.update link.ends s conn }

/-- Other bytes on their way to one end. -/
def Link.setWire (link : Link Sk Pk H) (s : Side) (bytes : Bytes) : Link Sk Pk H :=
  { link with wire := Function.update link.wire s bytes }

/-- Another state of the task of one end. -/
def Link.setTask (link : Link Sk Pk H) (s : Side) (task : ReadTask) : Link Sk Pk H :=
  { link with tasks := Function.update link.tasks s task }

/-- The next bytes are read, as many as these, or as there are. -/
def Link.read (link : Link Sk Pk H) (s : Side) (count : Nat) (pauseRead : Bool) : Link Sk Pk H :=
  let state := readRounds c (m s) (link.ends s, pauseRead) ((link.wire s).take count)
  ((link.setEnd s state.1).setWire s ((link.wire s).drop count)).setTask s (.reading state.2)

/-- One step. -/
def Link.step (link : Link Sk Pk H) : Action → Link Sk Pk H
  | .receive s count =>
    match (link.tasks s).reads with
    | none => link
    | some pauseRead => link.read c m s (min count readBufferLength) pauseRead
  | .round s =>
    let state := scheduleRead (link.ends s) (link.tasks s)
    (link.setEnd s state.1).setTask s state.2
  | .own s event =>
    (link.setEnd s ((link.ends s).handleOwn c event).1).setWire s.other
      (link.wire s.other ++ ((link.ends s).handleOwn c event).2)

/-- Any number of steps. -/
def Link.run (link : Link Sk Pk H) (actions : List Action) : Link Sk Pk H :=
  actions.foldl (Link.step c m) link

section Simp
variable (link : Link Sk Pk H) (s : Side) (conn : Connection Sk Pk H) (bytes : Bytes)
  (task : ReadTask)

@[simp] theorem Link.setEnd_ends_self : (link.setEnd s conn).ends s = conn := by
  simp [Link.setEnd]

@[simp] theorem Link.setEnd_ends_other : (link.setEnd s conn).ends s.other = link.ends s.other := by
  simp [Link.setEnd]

@[simp] theorem Link.setEnd_wire : (link.setEnd s conn).wire = link.wire := rfl

@[simp] theorem Link.setWire_ends : (link.setWire s bytes).ends = link.ends := rfl

@[simp] theorem Link.setWire_wire_self : (link.setWire s bytes).wire s = bytes := by
  simp [Link.setWire]

@[simp] theorem Link.setWire_wire_other :
    (link.setWire s bytes).wire s.other = link.wire s.other := by
  simp [Link.setWire]

@[simp] theorem Link.setWire_other_wire : (link.setWire s.other bytes).wire s = link.wire s := by
  simp [Link.setWire]

@[simp] theorem Link.setEnd_tasks : (link.setEnd s conn).tasks = link.tasks := rfl

@[simp] theorem Link.setWire_tasks : (link.setWire s bytes).tasks = link.tasks := rfl

@[simp] theorem Link.setTask_ends : (link.setTask s task).ends = link.ends := rfl

@[simp] theorem Link.setTask_wire : (link.setTask s task).wire = link.wire := rfl

@[simp] theorem Link.setTask_tasks_self : (link.setTask s task).tasks s = task := by
  simp [Link.setTask]

@[simp] theorem Link.setTask_tasks_other :
    (link.setTask s task).tasks s.other = link.tasks s.other := by
  simp [Link.setTask]

end Simp

/-! ## What is still to come -/

/-- What an end has of the frame it is reading. -/
def Connection.received (conn : Connection Sk Pk H) : Bytes :=
  conn.peer.pendingReadBuffer.take conn.peer.pendingReadBufferPos

/-- What it has not written yet. -/
def Connection.unsent (conn : Connection Sk Pk H) : Bytes :=
  remaining conn.peer.pendingOutboundBuffer conn.peer.pendingOutboundBufferFirstMsgOffset

/-- An end, without its buffers: `coming` is what it still has to read, from the start of the frame
it is at, which has `need` bytes. -/
structure Port (Sk Pk : Type) where
  encryptor : PeerChannelEncryptor Sk Pk
  theirNodeId : Option Pk
  isHeader : Bool
  need : Nat
  queued : List Bytes
  handed : List Bytes
  down : Option Stop
  coming : Bytes

/-- An end as it is seen, with the bytes that are on their way and those that are not sent.  Nothing
more comes to an end that is down. -/
def Connection.port (conn : Connection Sk Pk H) (wire unsent : Bytes) : Port Sk Pk where
  encryptor := conn.peer.channelEncryptor
  theirNodeId := conn.peer.theirNodeId
  isHeader := conn.peer.pendingReadIsHeader
  need := conn.peer.pendingReadBuffer.length
  queued := conn.queued
  handed := conn.handed
  down := conn.down
  coming := if conn.down = none then conn.received ++ wire ++ unsent else []

/-- Both ends. -/
def Link.view (link : Link Sk Pk H) (s : Side) : Port Sk Pk :=
  (link.ends s).port (link.wire s) (link.ends s.other).unsent

/-- More bytes that are to come. -/
def Port.extend (p : Port Sk Pk) (bytes : Bytes) : Port Sk Pk :=
  { p with coming := if p.down = none then p.coming ++ bytes else [] }

/-- The two ports, given that of one side and that of the other. -/
def ports (s : Side) (p q : Port Sk Pk) (t : Side) : Port Sk Pk := if t = s then p else q

@[simp] theorem ports_self (s : Side) (p q : Port Sk Pk) : ports s p q s = p := if_pos rfl

@[simp] theorem ports_other (s : Side) (p q : Port Sk Pk) : ports s p q s.other = q :=
  if_neg s.other_ne

theorem eq_ports (v : Side → Port Sk Pk) (s : Side) : v = ports s (v s) (v s.other) := by
  funext t
  rcases t.eq_or_eq_other s with rfl | rfl
  · rw [ports_self]
  · rw [ports_other]

/-- What is seen when one end has changed and has written `bytes` more. -/
theorem view_setEnd (link : Link Sk Pk H) (s : Side) {conn : Connection Sk Pk H} {bytes : Bytes}
    (h : conn.unsent = (link.ends s).unsent ++ bytes) :
    (link.setEnd s conn).view =
      ports s (conn.port (link.wire s) (link.ends s.other).unsent)
        ((link.view s.other).extend bytes) := by
  rw [eq_ports (link.setEnd s conn).view s]
  congr 1
  · simp [Link.view]
  · simp only [Link.view, Link.setEnd_ends_other, Side.other_other, Link.setEnd_ends_self,
      Link.setEnd_wire, h, Port.extend, Connection.port]
    split <;> simp

/-! ## The invariant -/

/-- **What is still to come of a sequence of messages**: whether the frame that is being read is a
length or a message, how long it is, the bytes, what the sender will go on with and what the reader
goes on with, and the messages. -/
inductive Stream : Bool → Nat → Bytes → CipherState → CipherState → List Bytes → Prop where
  | header (r : CipherState) (msgs : List Bytes) :
      Stream true 18 (sealAll c r msgs) (r.after c msgs) r msgs
  | body (r : CipherState) (msg : Bytes) (msgs : List Bytes) :
      Stream false (msg.length + 16) (body c r msg ++ sealAll c (r.next c) msgs)
        ((r.next c).after c msgs) (r.opened c) (msg :: msgs)

/-- The end is at a frame of `need` bytes and has `bytes` to read, unless it is down. -/
def Port.Reads (p : Port Sk Pk) (need : Nat) (bytes : Bytes) : Prop :=
  p.down = none → p.need = need ∧ p.coming = bytes

/-- The end knows the other one by `nodeId`, unless it has not accepted it. -/
def Port.Knows (p : Port Sk Pk) (nodeId : Pk) : Prop :=
  p.theirNodeId = some nodeId ∨ p.theirNodeId = none ∧ p.down ≠ none

/-- Nothing has been sent or read. -/
structure Port.Quiet (p : Port Sk Pk) : Prop where
  queued : p.queued = []
  handed : p.handed = []
  unknown : p.theirNodeId = none

/-- The node id of one end. -/
def nodeIdOf (s : Side) : Pk := c.fromSecretKey (m s).ourNodeSecret

/-- The encryptor of the end that connects, until the second act. -/
def outStart : PeerChannelEncryptor Sk Pk :=
  awaitingTwo c (m .out).ephemeralKey (m .inn).ourNodeSecret

/-- That of the other end, between the acts. -/
def innMiddle : PeerChannelEncryptor Sk Pk :=
  awaitingThree c (m .out).ephemeralKey (m .inn).ourNodeSecret (m .inn).ephemeralKey

/-- The acts of these two ends. -/
def firstAct : Bytes := (actOne c (m .out).ephemeralKey (m .inn).ourNodeSecret).2.1

@[inherit_doc firstAct]
def secondAct : Bytes :=
  (actTwo c (m .out).ephemeralKey (m .inn).ourNodeSecret (m .inn).ephemeralKey).2.1

@[inherit_doc firstAct]
def thirdAct : Bytes :=
  actThree c (m .out).ourNodeSecret (m .out).ephemeralKey (m .inn).ourNodeSecret
    (m .inn).ephemeralKey

/-- What an end sends with at first. -/
def sendKey : Side → CipherState
  | .out => outgoing c (m .out).ourNodeSecret (m .out).ephemeralKey (m .inn).ourNodeSecret
      (m .inn).ephemeralKey
  | .inn => incoming c (m .out).ourNodeSecret (m .out).ephemeralKey (m .inn).ourNodeSecret
      (m .inn).ephemeralKey

/-- The first act is under way. -/
structure StageOne (v : Side → Port Sk Pk) : Prop where
  out_encryptor : (v .out).encryptor = outStart c m
  inn_encryptor : (v .inn).encryptor = newInbound c (m .inn).ourNodeSecret
  quiet : ∀ s, (v s).Quiet
  out_reads : (v .out).Reads 50 []
  inn_reads : (v .inn).Reads 50 (firstAct c m)

/-- The second act is. -/
structure StageTwo (v : Side → Port Sk Pk) : Prop where
  out_encryptor : (v .out).encryptor = outStart c m
  inn_encryptor : (v .inn).encryptor = innMiddle c m
  quiet : ∀ s, (v s).Quiet
  out_reads : (v .out).Reads 50 (secondAct c m)
  inn_reads : (v .inn).Reads 66 []

/-- The third act is, with the first messages of the end that connects behind it. -/
structure StageThree (v : Side → Port Sk Pk) : Prop where
  out_encryptor : (v .out).encryptor = ⟨some (nodeIdOf c m .inn),
    .finished ((sendKey c m .out).after c (v .out).queued) (sendKey c m .inn)⟩
  inn_encryptor : (v .inn).encryptor = innMiddle c m
  inn_quiet : (v .inn).Quiet
  out_handed : (v .out).handed = []
  out_knows : (v .out).Knows (nodeIdOf c m .inn)
  out_reads : (v .out).Reads 18 []
  out_header : (v .out).isHeader = true
  inn_reads : (v .inn).Reads 66 (thirdAct c m ++ sealAll c (sendKey c m .out) (v .out).queued)

/-- The handshake is done: what one end has queued is what the other has read and what is still to
come for it. -/
structure StageOpen (v : Side → Port Sk Pk) (send receive : Side → CipherState)
    (msgs : Side → List Bytes) : Prop where
  encryptor : ∀ s, (v s).encryptor = ⟨some (nodeIdOf c m s.other), .finished (send s) (receive s)⟩
  knows : ∀ s, (v s).Knows (nodeIdOf c m s.other)
  queued : ∀ s, (v s.other).queued = (v s).handed ++ msgs s
  stream : ∀ s, (v s).down = none →
    Stream c (v s).isHeader (v s).need (v s).coming (send s.other) (receive s) (msgs s)

/-- **The invariant.** -/
inductive Inv (v : Side → Port Sk Pk) : Prop where
  | one (h : StageOne c m v)
  | two (h : StageTwo c m v)
  | three (h : StageThree c m v)
  | opened (send receive : Side → CipherState) (msgs : Side → List Bytes)
      (h : StageOpen c m v send receive msgs)

/-- What holds of either end by itself. -/
structure Tidy (conn : Connection Sk Pk H) : Prop where
  pos_lt : conn.down = none →
    conn.peer.pendingReadBufferPos < conn.peer.pendingReadBuffer.length
  offset : OffsetFits conn.peer.pendingOutboundBuffer
    conn.peer.pendingOutboundBufferFirstMsgOffset
  sendable : ∀ msg ∈ conn.queued, 2 ≤ msg.length ∧ msg.length ≤ lnMaxMsgLen
  long : conn.down ≠ some .shortMessage
  faultless : ∀ fault, conn.down ≠ some (.fault fault)

/-- The invariant of the two ends and what is between them. -/
structure Good (link : Link Sk Pk H) : Prop where
  inv : Inv c m link.view
  tidy : ∀ s, Tidy (link.ends s)

/-! ## What is sent -/

variable {c} in
theorem Stream.concat {isHeader : Bool} {need : Nat} {bytes : Bytes} {s r : CipherState}
    {msgs : List Bytes} (h : Stream c isHeader need bytes s r msgs) (msg : Bytes) :
    Stream c isHeader need (bytes ++ (Noise.header c s msg ++ Noise.body c s msg)) (s.next c) r
      (msgs ++ [msg]) := by
  cases h with
  | header r msgs =>
    rw [← sealAll_concat, ← after_concat]
    exact .header r (msgs ++ [msg])
  | body r first msgs =>
    rw [List.append_assoc, ← sealAll_concat, ← after_concat]
    exact .body r first (msgs ++ [msg])

variable {c} in
theorem Stream.inversion {isHeader : Bool} {need : Nat} {bytes : Bytes} {s r : CipherState}
    {msgs : List Bytes} (h : Stream c isHeader need bytes s r msgs) :
    (isHeader = true ∧ need = 18 ∧ bytes = sealAll c r msgs ∧ s = r.after c msgs) ∨
      ∃ r' msg msgs', isHeader = false ∧ r = r'.opened c ∧ msgs = msg :: msgs' ∧
        need = msg.length + 16 ∧ bytes = Noise.body c r' msg ++ sealAll c (r'.next c) msgs' ∧
        s = (r'.next c).after c msgs' := by
  cases h with
  | header r msgs => exact .inl ⟨rfl, rfl, rfl, rfl⟩
  | body r msg msgs => exact .inr ⟨r, msg, msgs, rfl, rfl, rfl, rfl, rfl, rfl⟩

/-- A message is sealed at one end. -/
def Port.seal (p : Port Sk Pk) (nodeId : Option Pk) (s r : CipherState) (msg : Bytes) :
    Port Sk Pk :=
  { p with encryptor := ⟨nodeId, .finished (s.next c) r⟩, queued := p.queued ++ [msg] }

theorem Port.Reads.extend {p : Port Sk Pk} {need : Nat} {bytes : Bytes} (h : p.Reads need bytes)
    (more : Bytes) : (p.extend more).Reads need (bytes ++ more) := by
  intro hup
  obtain ⟨hneed, hcoming⟩ := h hup
  have hup' : p.down = none := hup
  exact ⟨hneed, by simp [Port.extend, hup', hcoming]⟩

variable {c m} in
/-- A message that is sent is still to come at the other end. -/
theorem Inv.seal {v : Side → Port Sk Pk} (h : Inv c m v) {s : Side} {nodeId : Option Pk}
    {send receive : CipherState} (hfin : (v s).encryptor = ⟨nodeId, .finished send receive⟩)
    (msg : Bytes) :
    Inv c m (ports s ((v s).seal c nodeId send receive msg)
      ((v s.other).extend (header c send msg ++ body c send msg))) := by
  cases h with
  | one h =>
    cases s with
    | out => cases h.out_encryptor.symm.trans hfin
    | inn => cases h.inn_encryptor.symm.trans hfin
  | two h =>
    cases s with
    | out => cases h.out_encryptor.symm.trans hfin
    | inn => cases h.inn_encryptor.symm.trans hfin
  | three h =>
    cases s with
    | out =>
      cases h.out_encryptor.symm.trans hfin
      have hquiet := h.inn_quiet
      refine .three ⟨?_, h.inn_encryptor, ⟨hquiet.queued, hquiet.handed, hquiet.unknown⟩,
        h.out_handed, h.out_knows, h.out_reads, h.out_header, ?_⟩
      · simp [ports, Port.seal, after_concat]
      · have hreads := h.inn_reads.extend
          (header c ((sendKey c m .out).after c (v .out).queued) msg ++
            body c ((sendKey c m .out).after c (v .out).queued) msg)
        rw [List.append_assoc, ← sealAll_concat] at hreads
        exact hreads
    | inn => cases h.inn_encryptor.symm.trans hfin
  | opened sends receives msgs h =>
    cases (h.encryptor s).symm.trans hfin
    refine .opened (Function.update sends s ((sends s).next c)) receives
      (Function.update msgs s.other (msgs s.other ++ [msg])) ⟨?_, ?_, ?_, ?_⟩
    · intro t
      rcases t.eq_or_eq_other s with rfl | rfl
      · simp [Port.seal]
      · simpa [Port.extend] using h.encryptor s.other
    · intro t
      rcases t.eq_or_eq_other s with rfl | rfl
      · rw [ports_self]
        exact h.knows t
      · rw [ports_other]
        exact h.knows s.other
    · intro t
      rcases t.eq_or_eq_other s with rfl | rfl
      · simpa [Port.seal, Port.extend] using h.queued t
      · have hq := h.queued s.other
        rw [Side.other_other] at hq
        simp [Port.seal, Port.extend, hq]
    · intro t hup
      rcases t.eq_or_eq_other s with rfl | rfl
      · simp only [ports_self, Port.seal] at hup ⊢
        simpa using h.stream t hup
      · simp only [ports_other, Port.extend] at hup ⊢
        have hstream := (h.stream s.other hup).concat msg
        simpa [hup] using hstream

/-- The end goes down, and may forget the other one. -/
def Port.halt (p : Port Sk Pk) (reason : Stop) (theirNodeId : Option Pk) : Port Sk Pk :=
  { p with down := some reason, coming := [], theirNodeId := theirNodeId }

theorem Port.halt_reads (p : Port Sk Pk) (reason : Stop) (theirNodeId : Option Pk) (need : Nat)
    (bytes : Bytes) : (p.halt reason theirNodeId).Reads need bytes := fun hup => by cases hup

theorem Port.Knows.halt {p : Port Sk Pk} {nodeId : Pk} (h : p.Knows nodeId) (reason : Stop)
    {theirNodeId : Option Pk} (hid : theirNodeId = none ∨ theirNodeId = p.theirNodeId) :
    (p.halt reason theirNodeId).Knows nodeId := by
  rcases hid with rfl | rfl
  · exact .inr ⟨rfl, by simp [Port.halt]⟩
  · rcases h with h | ⟨h, -⟩
    · exact .inl h
    · exact .inr ⟨h, by simp [Port.halt]⟩

theorem Port.Quiet.halt {p : Port Sk Pk} (h : p.Quiet) (reason : Stop)
    {theirNodeId : Option Pk} (hid : theirNodeId = none ∨ theirNodeId = p.theirNodeId) :
    (p.halt reason theirNodeId).Quiet := by
  refine ⟨h.queued, h.handed, ?_⟩
  rcases hid with rfl | rfl
  · rfl
  · exact h.unknown

theorem ports_quiet (s : Side) {p q : Port Sk Pk} (hp : p.Quiet) (hq : q.Quiet) (t : Side) :
    (ports s p q t).Quiet := by
  rcases t.eq_or_eq_other s with rfl | rfl
  · rw [ports_self]
    exact hp
  · rw [ports_other]
    exact hq

variable {c m} in
/-- An end may go down at any time. -/
theorem Inv.halt {v : Side → Port Sk Pk} (h : Inv c m v) (s : Side) (reason : Stop)
    {theirNodeId : Option Pk} (hid : theirNodeId = none ∨ theirNodeId = (v s).theirNodeId) :
    Inv c m (ports s ((v s).halt reason theirNodeId) (v s.other)) := by
  cases h with
  | one h =>
    have hquiet := ports_quiet s ((h.quiet s).halt reason hid) (h.quiet s.other)
    cases s with
    | out =>
      exact .one ⟨h.out_encryptor, h.inn_encryptor, hquiet, Port.halt_reads _ _ _ _ _,
        h.inn_reads⟩
    | inn =>
      exact .one ⟨h.out_encryptor, h.inn_encryptor, hquiet, h.out_reads,
        Port.halt_reads _ _ _ _ _⟩
  | two h =>
    have hquiet := ports_quiet s ((h.quiet s).halt reason hid) (h.quiet s.other)
    cases s with
    | out =>
      exact .two ⟨h.out_encryptor, h.inn_encryptor, hquiet, Port.halt_reads _ _ _ _ _,
        h.inn_reads⟩
    | inn =>
      exact .two ⟨h.out_encryptor, h.inn_encryptor, hquiet, h.out_reads,
        Port.halt_reads _ _ _ _ _⟩
  | three h =>
    cases s with
    | out =>
      exact .three ⟨h.out_encryptor, h.inn_encryptor, h.inn_quiet, h.out_handed,
        h.out_knows.halt reason hid, Port.halt_reads _ _ _ _ _, h.out_header, h.inn_reads⟩
    | inn =>
      exact .three ⟨h.out_encryptor, h.inn_encryptor, h.inn_quiet.halt reason hid, h.out_handed,
        h.out_knows, h.out_reads, h.out_header, Port.halt_reads _ _ _ _ _⟩
  | opened sends receives msgs h =>
    refine .opened sends receives msgs ⟨?_, ?_, ?_, ?_⟩
    · intro t
      rcases t.eq_or_eq_other s with rfl | rfl
      · rw [ports_self]
        exact h.encryptor t
      · rw [ports_other]
        exact h.encryptor s.other
    · intro t
      rcases t.eq_or_eq_other s with rfl | rfl
      · rw [ports_self]
        exact (h.knows t).halt reason hid
      · rw [ports_other]
        exact h.knows s.other
    · intro t
      rcases t.eq_or_eq_other s with rfl | rfl
      · rw [ports_self, ports_other]
        exact h.queued t
      · rw [ports_other, Side.other_other, ports_self]
        have hq := h.queued s.other
        rwa [Side.other_other] at hq
    · intro t hup
      rcases t.eq_or_eq_other s with rfl | rfl
      · rw [ports_self] at hup
        cases hup
      · rw [ports_other] at hup ⊢
        exact h.stream s.other hup

/-! ## Steps that are not seen -/

theorem writeLoop_remaining (readPaused : Bool) (queue : List Bytes) (offset : Nat)
    (answers : List Nat) :
    (writeLoop readPaused queue offset answers).sent ++
      remaining (writeLoop readPaused queue offset answers).queue
        (writeLoop readPaused queue offset answers).offset = remaining queue offset := by
  induction queue generalizing readPaused offset answers with
  | nil => rfl
  | cons nextBuff queue ih =>
    rw [writeLoop]
    split
    case isTrue h =>
      -- the whole rest of the first buffer has been taken
      have htake : (nextBuff.drop offset).take
          (min (answers.headD 0) (nextBuff.drop offset).length) = nextBuff.drop offset := by
        rw [List.take_of_length_le]
        rw [List.length_drop] at h ⊢
        omega
      simp only [htake, List.append_assoc, ih]
      cases queue with
      | nil => simp [remaining]
      | cons second queue => simp [remaining]
    case isFalse h =>
      simp only [remaining]
      rw [← List.append_assoc, ← List.drop_drop, List.take_append_drop]

theorem writeLoop_offset {queue : List Bytes} {offset : Nat} (h : OffsetFits queue offset)
    (readPaused : Bool) (answers : List Nat) :
    OffsetFits (writeLoop readPaused queue offset answers).queue
      (writeLoop readPaused queue offset answers).offset := by
  induction queue generalizing readPaused offset answers with
  | nil => exact h
  | cons nextBuff queue ih =>
    rw [writeLoop]
    split
    case isTrue => exact ih (Nat.zero_le _) _ answers.tail
    case isFalse =>
      have hle : offset ≤ nextBuff.length := h
      simp only [OffsetFits, List.headD_cons, List.length_drop]
      omega

end Noise
end HiddenLightning
