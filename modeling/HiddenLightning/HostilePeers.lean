import HiddenLightning.PeerConnection

/-! # Whatever a peer sends

The acts, the lengths and the messages come from the other side, which may send what it likes.  The
code that reads them asserts much: that an act has 50 bytes or 66, that a header has 18, that a
message has two bytes at least and not too many, that the key of the second act is there when the
third is read, that the read buffer is not full.

`Expects` ties what the connection expects next to the length of its read buffer.  Each frame leaves
it so, whatever is in it (`onFrame_sound`), and so no bytes, however they come, reach a panic of the
code that reads them.

What a node sends is encrypted, and that panics if the message is longer than a frame takes.  The
code does not see to it that it is not: an error or a warning may quote what the peer has sent.
This is the only way to a panic (`panics_iff_long_message`). -/
namespace HiddenLightning
namespace Noise
open KeyStreams FrameBuffers

variable {Sk Pk H : Type} (c : NoiseCrypto Sk Pk) (m : PeerManager Sk Pk H)

/-! ## Decryption -/

variable {c} in
/-- What is decrypted is as long as what was sealed, but for the tag. -/
theorem decryptWithAd_ok {n : Nat} {key h cyphertext plaintext : Bytes}
    (hok : decryptWithAd c n key h cyphertext = .ok plaintext) :
    plaintext.length = cyphertext.length - 16 := by
  rw [decryptWithAd] at hok
  split at hok
  case isTrue => cases hok
  case isFalse hlen =>
    split at hok
    case isTrue =>
      cases hok
      rw [length_mask, List.length_take]
      omega
    case isFalse => cases hok

/-- Only what is shorter than a tag makes `decrypt_with_ad` panic. -/
theorem decryptWithAd_ne_panic {n : Nat} {key h cyphertext : Bytes}
    (hlen : 16 ≤ cyphertext.length) :
    decryptWithAd c n key h cyphertext ≠ .error .panic := by
  rw [decryptWithAd, if_neg (by omega)]
  split
  case isTrue => exact fun h => by cases h
  case isFalse => exact fun h => by cases h

/-- A computation does not panic if neither of its parts does. -/
theorem bind_ne_panic {α β : Type} {x : Except Fault α} {f : α → Except Fault β}
    (hx : x ≠ .error .panic) (hf : ∀ a, x = .ok a → f a ≠ .error .panic) :
    (x >>= f) ≠ .error .panic := by
  cases x with
  | error fault => exact fun h => hx (by cases h; rfl)
  | ok a => exact hf a rfl

theorem bind_eq_ok {α β : Type} {x : Except Fault α} {f : α → Except Fault β} {b : β}
    (h : (x >>= f) = .ok b) : ∃ a, x = .ok a ∧ f a = .ok b := by
  cases x with
  | error fault => cases h
  | ok a => exact ⟨a, rfl, h⟩

/-- An act of 50 bytes is processed, or refused. -/
theorem inboundNoiseAct_ne_panic (state : BidirectionalNoiseState) {act : Bytes}
    (hlen : act.length = 50) (ourKey : Sk) :
    inboundNoiseAct c state act ourKey ≠ .error .panic := by
  rw [inboundNoiseAct, if_neg (by simp [hlen])]
  split
  case isTrue => exact fun h => by cases h
  case isFalse =>
    split
    case h_1 => exact fun h => by cases h
    case h_2 =>
      refine bind_ne_panic (decryptWithAd_ne_panic c ?_) fun _ _ h => by cases h
      rw [List.length_drop]
      omega

/-! ## What is expected -/

/-- **What a connection expects next**, and how long its read buffer then is. -/
def Expects (e : PeerChannelEncryptor Sk Pk) (isHeader : Bool) (len : Nat) : Prop :=
  match e.noiseState with
  | .inProgress .preActOne (.inbound none none none) _ => len = 50
  | .inProgress .postActOne (.outbound _) _ => len = 50 ∧ e.theirNodeId.isSome
  | .inProgress .postActTwo (.inbound (some _) (some _) (some _)) _ => len = 66
  | .finished _ _ => if isHeader then len = 18 else 18 ≤ len ∧ len ≤ lnMaxMsgLen + 16
  | _ => False

/-- A connection that is past the handshake. -/
def Ready (conn : Connection Sk Pk H) : Prop :=
  conn.peer.channelEncryptor.isReadyForEncryption = true

/-- The connection knows what it expects next, and with whom it is once that is settled. -/
structure Consistent (conn : Connection Sk Pk H) : Prop where
  pos_lt : conn.peer.pendingReadBufferPos < conn.peer.pendingReadBuffer.length
  expects : Expects conn.peer.channelEncryptor conn.peer.pendingReadIsHeader
    conn.peer.pendingReadBuffer.length
  known : Ready conn → conn.peer.theirNodeId.isSome

/-- No message that was given to `enqueue_message` was too long. -/
def NoneTooLong (conn : Connection Sk Pk H) : Prop :=
  ∀ message ∈ conn.queued, message.length ≤ lnMaxMsgLen

/-- **The connection has panicked exactly if a message was too long**, and is consistent if it has
not ended. -/
structure Sound (conn : Connection Sk Pk H) : Prop where
  panics : conn.down = some (.fault .panic) ↔ ¬NoneTooLong conn
  consistent : conn.down = none → Consistent conn

theorem Sound.noneTooLong {conn : Connection Sk Pk H} (h : Sound conn) (hup : conn.down = none) :
    NoneTooLong conn := by
  by_contra hlong
  rw [h.panics.mpr hlong] at hup
  cases hup

/-- A connection that has not ended is sound if it is consistent and no message was too long. -/
theorem sound_of_consistent {conn : Connection Sk Pk H} (hup : conn.down = none)
    (hshort : NoneTooLong conn) (h : Consistent conn) : Sound conn :=
  ⟨iff_of_false (by simp [hup]) (not_not.mpr hshort), fun _ => h⟩

/-- Without such a message a connection may end for any reason but a panic. -/
theorem sound_stop {conn : Connection Sk Pk H} (hshort : NoneTooLong conn) {reason : Stop}
    (h : reason ≠ .fault .panic) : Sound (conn.stop reason) :=
  ⟨iff_of_false (fun heq => h (Option.some.inj heq)) (not_not.mpr hshort),
    fun hup => by cases hup⟩

/-! ## Frames -/

/-- After a panic nothing is queued any more. -/
theorem enqueueMessage_down {conn : Connection Sk Pk H} (hdown : conn.down ≠ none)
    (message : WireMessage) : enqueueMessage c conn message = conn := by
  rw [enqueueMessage, if_pos (Option.isSome_iff_ne_none.mpr hdown)]

/-- A message that is encrypted leaves the keys there. -/
theorem encryptMessage_ok {e e' : PeerChannelEncryptor Sk Pk} {msg buffer : Bytes}
    (h : encryptMessage c e msg = .ok (e', buffer)) : e'.isReadyForEncryption = true := by
  rw [encryptMessage] at h
  split at h
  case isTrue => cases h
  case isFalse =>
    split at h
    case h_1 =>
      cases h
      rfl
    case h_2 => cases h

/-- A message that is too long. -/
theorem enqueueMessage_long {conn : Connection Sk Pk H} (hup : conn.down = none)
    {message : WireMessage} (hlong : ¬message.Fits) :
    enqueueMessage c conn message =
      { conn with queued := conn.queued ++ [message.bytes] }.stop (.fault .panic) := by
  have hrunning : ¬conn.down.isSome := by simp [hup]
  have hpanic : encryptMessage c conn.peer.channelEncryptor message.bytes = .error .panic := by
    rw [encryptMessage, if_pos (Nat.lt_of_not_le hlong)]
  rw [enqueueMessage, if_neg hrunning]
  dsimp only
  split
  case isTrue => rfl
  case isFalse => rw [hpanic]

/-- A message is queued, and the keys are still there; or it was too long. -/
theorem enqueueMessage_sound {conn : Connection Sk Pk H} (h : Sound conn)
    (hready : conn.down = none → Ready conn) (message : WireMessage) :
    Sound (enqueueMessage c conn message) ∧
      ((enqueueMessage c conn message).down = none → Ready (enqueueMessage c conn message)) := by
  by_cases hup : conn.down = none
  · have hcons := h.consistent hup
    have hshort := h.noneTooLong hup
    by_cases hfits : message.Fits
    · obtain ⟨nodeId, s, r, hfin⟩ := exists_finished (hready hup)
      have hid := hcons.known (hready hup)
      rw [enqueueMessage_finished c hup hfin hid hfits]
      have hexp := hcons.expects
      rw [hfin] at hexp
      refine ⟨sound_of_consistent hup ?_ ⟨hcons.pos_lt, hexp, fun _ => hid⟩, fun _ => rfl⟩
      exact List.forall_mem_append.mpr ⟨hshort, List.forall_mem_singleton.mpr hfits⟩
    · rw [enqueueMessage_long c hup hfits]
      refine ⟨⟨iff_of_true rfl fun hall => hfits ?_, fun hup => by cases hup⟩,
        fun hup => by cases hup⟩
      exact hall message.bytes (List.mem_append_right _ (List.mem_singleton_self _))
  · rw [enqueueMessage_down c hup]
    exact ⟨h, hready⟩

/-- And so with all the answers to a message. -/
theorem replies_sound {conn : Connection Sk Pk H} (h : Sound conn)
    (hready : conn.down = none → Ready conn) (replies : List WireMessage) :
    Sound (replies.foldl (enqueueMessage c) conn) := by
  induction replies generalizing conn with
  | nil => exact h
  | cons reply replies ih =>
    obtain ⟨hnext, hready⟩ := enqueueMessage_sound c h hready reply
    exact ih hnext hready

/-- The connection waits for the length of a message, and none was too long. -/
structure AwaitsHeader (conn : Connection Sk Pk H) : Prop where
  up : conn.down = none
  ready : Ready conn
  pos : conn.peer.pendingReadBufferPos = 0
  length : conn.peer.pendingReadBuffer.length = 18
  header : conn.peer.pendingReadIsHeader = true
  noneTooLong : NoneTooLong conn

theorem AwaitsHeader.sound {conn : Connection Sk Pk H} (h : AwaitsHeader conn)
    (hid : conn.peer.theirNodeId.isSome) : Sound conn := by
  obtain ⟨nodeId, s, r, hfin⟩ := exists_finished h.ready
  refine sound_of_consistent h.up h.noneTooLong ⟨by rw [h.pos, h.length]; omega, ?_, fun _ => hid⟩
  rw [hfin, h.header, h.length]
  rfl

/-- Once the peer is known, it is refused or welcomed. -/
theorem finishHandshake_sound {conn : Connection Sk Pk H} (h : AwaitsHeader conn)
    (theirNodeId : Pk) : Sound (finishHandshake c m conn theirNodeId) := by
  rw [finishHandshake]
  split
  case h_1 =>
    refine sound_stop ?_ (by simp)
    exact h.noneTooLong
  case h_2 node _ =>
    have hnode : AwaitsHeader { conn with
        peer := { conn.peer with theirNodeId := some theirNodeId }, node := node } :=
      ⟨h.up, h.ready, h.pos, h.length, h.header, h.noneTooLong⟩
    exact (enqueueMessage_sound c (hnode.sound rfl) (fun _ => hnode.ready) m.init).1

/-- A message that has been read is answered, or ends the connection. -/
theorem onMessage_sound {conn : Connection Sk Pk H} (h : AwaitsHeader conn)
    (hid : conn.peer.theirNodeId.isSome) (message : Bytes) :
    Sound (onMessage c m conn message) := by
  rw [onMessage]
  split
  case h_1 =>
    refine sound_stop ?_ (by simp)
    exact h.noneTooLong
  case h_2 node replies _ =>
    have hnode : AwaitsHeader
        { conn with node := node, handed := conn.handed ++ [message] } :=
      ⟨h.up, h.ready, h.pos, h.length, h.header, h.noneTooLong⟩
    exact replies_sound c (hnode.sound hid) (fun _ => hnode.ready) replies

/-- The first act finds the end that waits for it. -/
theorem onActOne_sound {conn : Connection Sk Pk H} {state : BidirectionalNoiseState}
    (hup : conn.down = none) (hpos : conn.peer.pendingReadBufferPos = 0)
    (hlen : conn.peer.pendingReadBuffer.length = 50)
    (hshort : NoneTooLong conn) (hstate : conn.peer.channelEncryptor.noiseState =
      .inProgress .preActOne (.inbound none none none) state) : Sound (onFrame c m conn) := by
  have hstep : conn.peer.channelEncryptor.getNoiseStep = .actOne := by
    simp [PeerChannelEncryptor.getNoiseStep, hstate]
  simp only [onFrame, hstep]
  have hacc := inboundNoiseAct_ne_panic c state hlen m.ourNodeSecret
  simp only [processActOneWithKeys, hstate]
  cases hin : inboundNoiseAct c state conn.peer.pendingReadBuffer m.ourNodeSecret with
  | error fault =>
    refine sound_stop hshort fun heq => hacc ?_
    rw [hin, Stop.fault.inj heq]
  | ok r =>
    refine sound_of_consistent hup hshort ⟨?_, ?_, fun h => by cases h⟩
    · simp [bind, Except.bind, pure, Except.pure, Peer.awaitFrame, Peer.pushBack, hpos]
    · simp [bind, Except.bind, pure, Except.pure, Peer.awaitFrame, Peer.pushBack, Expects]

/-- What can come of an act or a header that is processed: an error other than a panic, or what
`good` says of the result. -/
theorem result_cases {α : Type} {x : Except Fault α} (h : x ≠ .error .panic) :
    (∃ fault, x = .error fault ∧ Stop.fault fault ≠ .fault .panic) ∨ ∃ a, x = .ok a := by
  cases x with
  | error fault => exact .inl ⟨fault, rfl, fun heq => h (by rw [Stop.fault.inj heq])⟩
  | ok a => exact .inr ⟨a, rfl⟩

/-- The second act finds the key of the node that was dialled. -/
theorem onActTwo_sound {conn : Connection Sk Pk H} {state : BidirectionalNoiseState} {ie : Sk}
    (hup : conn.down = none) (hpos : conn.peer.pendingReadBufferPos = 0)
    (hlen : conn.peer.pendingReadBuffer.length = 50)
    (hid : conn.peer.channelEncryptor.theirNodeId.isSome) (hshort : NoneTooLong conn)
    (hstate : conn.peer.channelEncryptor.noiseState =
      .inProgress .postActOne (.outbound ie) state) : Sound (onFrame c m conn) := by
  have hstep : conn.peer.channelEncryptor.getNoiseStep = .actTwo := by
    simp [PeerChannelEncryptor.getNoiseStep, hstate]
  obtain ⟨theirNodeId, hid⟩ := Option.isSome_iff_exists.mp hid
  simp only [onFrame, hstep, processActTwo, hstate, hid]
  rcases result_cases (inboundNoiseAct_ne_panic c state hlen ie) with
    ⟨fault, hin, hfault⟩ | ⟨r, hin⟩
  · simp only [hin]
    exact sound_stop hshort hfault
  · simp only [hin]
    refine finishHandshake_sound c m ?_ _
    exact ⟨hup, rfl, hpos, length_zeros 18, rfl, hshort⟩

/-- The third act finds the keys that the second has left. -/
theorem processActThree_ne_panic {e : PeerChannelEncryptor Sk Pk} {act : Bytes}
    {state : BidirectionalNoiseState} {ie : Option Pk} {re : Sk} {tempK2 : Bytes}
    (hlen : act.length = 66)
    (hstate : e.noiseState =
      .inProgress .postActTwo (.inbound ie (some re) (some tempK2)) state) :
    processActThree c e act ≠ .error .panic := by
  rw [processActThree, if_neg (by simp [hlen])]
  simp only [hstate]
  split
  case isTrue => exact fun h => by cases h
  case isFalse =>
    refine bind_ne_panic (decryptWithAd_ne_panic c ?_) fun theirNodeId _ => ?_
    · rw [List.length_take, List.length_drop]
      omega
    · split
      case h_1 => exact fun h => by cases h
      case h_2 =>
        refine bind_ne_panic (decryptWithAd_ne_panic c ?_) fun _ _ h => by cases h
        rw [List.length_drop]
        omega

/-- An accepted third act finishes the handshake. -/
theorem processActThree_ok {e e' : PeerChannelEncryptor Sk Pk} {act : Bytes} {theirNodeId : Pk}
    (h : processActThree c e act = .ok (e', theirNodeId)) : e'.isReadyForEncryption = true := by
  rw [processActThree] at h
  split at h
  case isTrue => cases h
  case isFalse =>
    split at h
    case h_2 => cases h
    case h_1 tempK2 state _ =>
      split at h
      case isTrue => cases h
      case isFalse =>
        obtain ⟨nodeId, -, h⟩ := bind_eq_ok h
        split at h
        case h_1 => cases h
        case h_2 =>
          obtain ⟨_, -, h⟩ := bind_eq_ok h
          cases h
          rfl

theorem onActThree_sound {conn : Connection Sk Pk H} {state : BidirectionalNoiseState}
    {ie : Option Pk} {re : Sk} {tempK2 : Bytes} (hup : conn.down = none)
    (hpos : conn.peer.pendingReadBufferPos = 0)
    (hlen : conn.peer.pendingReadBuffer.length = 66) (hshort : NoneTooLong conn)
    (hstate : conn.peer.channelEncryptor.noiseState =
      .inProgress .postActTwo (.inbound ie (some re) (some tempK2)) state) :
    Sound (onFrame c m conn) := by
  have hstep : conn.peer.channelEncryptor.getNoiseStep = .actThree := by
    simp [PeerChannelEncryptor.getNoiseStep, hstate]
  simp only [onFrame, hstep]
  rcases result_cases (processActThree_ne_panic c hlen hstate) with
    ⟨fault, hres, hfault⟩ | ⟨⟨e, theirNodeId⟩, hres⟩
  · simp only [hres]
    exact sound_stop hshort hfault
  · simp only [hres]
    refine finishHandshake_sound c m ?_ theirNodeId
    exact ⟨hup, processActThree_ok c hres, hpos, length_zeros 18, rfl, hshort⟩

theorem decryptLengthHeader_ne_panic {nodeId : Option Pk} {s r : CipherState} {msg : Bytes}
    (hlen : msg.length = 18) :
    decryptLengthHeader c ⟨nodeId, .finished s r⟩ msg ≠ .error .panic := by
  rw [decryptLengthHeader, if_neg (by simp [hlen])]
  exact bind_ne_panic (decryptWithAd_ne_panic c (by omega)) fun _ _ h => by cases h

/-- A length has two bytes. -/
theorem decryptLengthHeader_ok {nodeId : Option Pk} {s r : CipherState} {msg : Bytes}
    {e : PeerChannelEncryptor Sk Pk} {msgLen : Nat}
    (h : decryptLengthHeader c ⟨nodeId, .finished s r⟩ msg = .ok (e, msgLen)) :
    msgLen ≤ lnMaxMsgLen ∧ ∃ r', e = ⟨nodeId, .finished s r'⟩ := by
  rw [decryptLengthHeader] at h
  split at h
  case isTrue => cases h
  case isFalse hlen =>
    obtain ⟨res, hres, h⟩ := bind_eq_ok h
    cases h
    have htwo : res.length = 2 := by rw [decryptWithAd_ok hres, not_not.mp hlen]
    have hlt := BigEndian.ofBytes_lt res
    rw [htwo] at hlt
    refine ⟨?_, _, rfl⟩
    rw [lnMaxMsgLen]
    omega

/-- A header says how much is to be read, at least two bytes and never too much. -/
theorem onHeader_sound {conn : Connection Sk Pk H} {nodeId : Option Pk} {s r : CipherState}
    (hup : conn.down = none) (hpos : conn.peer.pendingReadBufferPos = 0)
    (hlen : conn.peer.pendingReadBuffer.length = 18)
    (hfin : conn.peer.channelEncryptor = ⟨nodeId, .finished s r⟩)
    (hid : conn.peer.theirNodeId.isSome) (hheader : conn.peer.pendingReadIsHeader = true)
    (hshort : NoneTooLong conn) : Sound (onFrame c m conn) := by
  have hstep : conn.peer.channelEncryptor.getNoiseStep = .noiseComplete := by
    rw [hfin]
    rfl
  have hsafe : decryptLengthHeader c conn.peer.channelEncryptor conn.peer.pendingReadBuffer ≠
      .error .panic := hfin ▸ decryptLengthHeader_ne_panic c hlen
  simp only [onFrame, hstep, hheader, if_true]
  rcases result_cases hsafe with ⟨fault, hres, hfault⟩ | ⟨⟨e, msgLen⟩, hres⟩
  · simp only [hres]
    exact sound_stop hshort hfault
  · obtain ⟨hmax, r', rfl⟩ := decryptLengthHeader_ok c (hfin ▸ hres)
    simp only [hres]
    by_cases hfew : msgLen < 2
    · rw [if_pos hfew]
      exact sound_stop hshort (by simp)
    · rw [if_neg hfew]
      have hlong : 18 ≤ msgLen + 16 := by omega
      refine sound_of_consistent hup hshort ⟨?_, ?_, fun _ => hid⟩
      · simp [Peer.awaitFrame, hpos]
      · simp [Peer.awaitFrame, Expects, hlong, hmax]

theorem decryptMessage_ne_panic {nodeId : Option Pk} {s r : CipherState} {msg : Bytes}
    (hmin : 18 ≤ msg.length) (hmax : msg.length ≤ lnMaxMsgLen + 16) :
    decryptMessage c ⟨nodeId, .finished s r⟩ msg ≠ .error .panic := by
  rw [decryptMessage, if_neg (by omega)]
  exact bind_ne_panic (decryptWithAd_ne_panic c (by omega)) fun _ _ h => by cases h

theorem decryptMessage_ok {nodeId : Option Pk} {s r : CipherState} {msg msgData : Bytes}
    {e : PeerChannelEncryptor Sk Pk}
    (h : decryptMessage c ⟨nodeId, .finished s r⟩ msg = .ok (e, msgData)) :
    msgData.length = msg.length - 16 ∧ e.isReadyForEncryption = true := by
  rw [decryptMessage] at h
  split at h
  case isTrue => cases h
  case isFalse =>
    obtain ⟨res, hres, h⟩ := bind_eq_ok h
    cases h
    exact ⟨decryptWithAd_ok hres, rfl⟩

/-- A body was announced by a header, and is as long as that said. -/
theorem onBody_sound {conn : Connection Sk Pk H} {nodeId : Option Pk} {s r : CipherState}
    (hup : conn.down = none) (hpos : conn.peer.pendingReadBufferPos = 0)
    (hmin : 18 ≤ conn.peer.pendingReadBuffer.length)
    (hmax : conn.peer.pendingReadBuffer.length ≤ lnMaxMsgLen + 16)
    (hfin : conn.peer.channelEncryptor = ⟨nodeId, .finished s r⟩)
    (hid : conn.peer.theirNodeId.isSome) (hheader : conn.peer.pendingReadIsHeader = false)
    (hshort : NoneTooLong conn) : Sound (onFrame c m conn) := by
  have hstep : conn.peer.channelEncryptor.getNoiseStep = .noiseComplete := by
    rw [hfin]
    rfl
  have hsafe : decryptMessage c conn.peer.channelEncryptor conn.peer.pendingReadBuffer ≠
      .error .panic := hfin ▸ decryptMessage_ne_panic c hmin hmax
  simp only [onFrame, hstep, hheader, Bool.false_eq_true, if_false]
  rcases result_cases hsafe with ⟨fault, hres, hfault⟩ | ⟨⟨e, msgData⟩, hres⟩
  · simp only [hres]
    exact sound_stop hshort hfault
  · obtain ⟨hlen, hready⟩ := decryptMessage_ok c (hfin ▸ hres)
    simp only [hres]
    rw [if_neg (by omega)]
    refine onMessage_sound c m ?_ ?_ msgData
    case refine_2 => exact hid
    exact ⟨hup, hready, hpos, length_resize _ _ _, rfl, hshort⟩

/-- **A full buffer**, whatever is in it. -/
theorem onFrame_sound {conn : Connection Sk Pk H} (hup : conn.down = none)
    (hpos : conn.peer.pendingReadBufferPos = 0)
    (hexp : Expects conn.peer.channelEncryptor conn.peer.pendingReadIsHeader
      conn.peer.pendingReadBuffer.length)
    (hknown : Ready conn → conn.peer.theirNodeId.isSome) (hshort : NoneTooLong conn) :
    Sound (onFrame c m conn) := by
  rw [Expects] at hexp
  split at hexp
  case h_1 hstate => exact onActOne_sound c m hup hpos hexp hshort hstate
  case h_2 hstate => exact onActTwo_sound c m hup hpos hexp.1 hexp.2 hshort hstate
  case h_3 hstate => exact onActThree_sound c m hup hpos hexp hshort hstate
  case h_4 s r hstate =>
    have hfin : conn.peer.channelEncryptor =
        ⟨conn.peer.channelEncryptor.theirNodeId, .finished s r⟩ := by rw [← hstate]
    have hid := hknown (by rw [Ready, hfin]; rfl)
    split at hexp
    case isTrue hheader => exact onHeader_sound c m hup hpos hexp hfin hid hheader hshort
    case isFalse hheader =>
      exact onBody_sound c m hup hpos hexp.1 hexp.2 hfin hid (Bool.not_eq_true _ ▸ hheader) hshort
  case h_5 => exact hexp.elim

/-! ## Runs -/

/-- **A byte more**: it is put by, or completes what was awaited. -/
theorem readByte_sound {conn : Connection Sk Pk H} (h : Sound conn) (b : UInt8) :
    Sound (readPiece c m conn [b]) := by
  by_cases hup : conn.down = none
  · obtain ⟨hpos, hexp, hknown⟩ := h.consistent hup
    have hshort := h.noneTooLong hup
    have hone : [b].length = 1 := rfl
    have hlen : (overwrite conn.peer.pendingReadBuffer conn.peer.pendingReadBufferPos [b]).length =
        conn.peer.pendingReadBuffer.length := length_overwrite (by omega)
    rcases Nat.lt_or_ge (conn.peer.pendingReadBufferPos + [b].length)
      conn.peer.pendingReadBuffer.length with hlt | hge
    · rw [readPiece_unfinished c m hup hlt]
      refine sound_of_consistent hup hshort ⟨?_, ?_, hknown⟩
      · simp only [Connection.copy]
        rw [hlen]
        exact hlt
      · simp only [Connection.copy]
        rw [hlen]
        exact hexp
    · rw [readPiece_full c m hup hpos (by omega)]
      refine onFrame_sound c m hup rfl ?_ hknown hshort
      simp only [Connection.copy]
      rw [hlen]
      exact hexp
  · rw [readPiece_down c m hup]
    exact h

theorem readEvent_sound {conn : Connection Sk Pk H} (h : Sound conn) (data : Bytes) :
    Sound (readEvent c m conn data) := by
  rw [readEvent_eq_foldl]
  induction data generalizing conn with
  | nil => exact h
  | cons b data ih => exact ih (readByte_sound c m h b)

/-- To write takes bytes from the queue, and nothing else. -/
theorem doAttemptWriteData_sound {conn : Connection Sk Pk H} (h : Sound conn)
    (answers : List Nat) : Sound (doAttemptWriteData conn answers).1 := by
  rw [doAttemptWriteData]
  split
  case isTrue => exact h
  case isFalse =>
    exact ⟨h.panics, fun hup =>
      ⟨(h.consistent hup).pos_lt, (h.consistent hup).expects, (h.consistent hup).known⟩⟩

theorem setAwaiting_sound {conn : Connection Sk Pk H} (h : Sound conn) (awaiting : Bool) :
    Sound (conn.setAwaiting awaiting) :=
  ⟨h.panics, fun hup =>
    ⟨(h.consistent hup).pos_lt, (h.consistent hup).expects, (h.consistent hup).known⟩⟩

/-- What the node does of itself. -/
theorem handleOwn_sound {conn : Connection Sk Pk H} (h : Sound conn) (event : OwnEvent) :
    Sound (conn.handleOwn c event).1 := by
  cases event with
  | send message =>
    rw [Connection.handleOwn]
    split
    case isTrue hready => exact (enqueueMessage_sound c h (fun _ => hready.2) message).1
    case isFalse => exact h
  | spaceAvail answers =>
    rw [Connection.handleOwn]
    split
    case isTrue => exact doAttemptWriteData_sound (setAwaiting_sound h false) answers
    case isFalse => exact h
  | processEvents answers =>
    rw [Connection.handleOwn]
    split
    case isTrue => exact doAttemptWriteData_sound h answers
    case isFalse => exact h
  | close =>
    rw [Connection.handleOwn]
    split
    case isTrue hup => exact sound_stop (h.noneTooLong hup) (by simp)
    case isFalse => exact h

theorem handle_sound {conn : Connection Sk Pk H} (h : Sound conn) (event : Event) :
    Sound (conn.handle c m event).1 := by
  cases event with
  | read data => exact readEvent_sound c m h data
  | own event => exact handleOwn_sound c h event

/-- **A whole run stays sound.** -/
theorem handleAll_sound {conn : Connection Sk Pk H} (h : Sound conn) (events : List Event) :
    Sound (conn.handleAll c m events) := by
  induction events generalizing conn with
  | nil => exact h
  | cons event events ih => exact ih (handle_sound c m h event)

theorem newInboundConnection_sound (node : H) : Sound (newInboundConnection c m node) :=
  sound_of_consistent rfl (List.forall_mem_nil _)
    ⟨by simp [newInboundConnection], by simp [Expects, newInboundConnection, newInbound],
      fun h => by cases h⟩

theorem newOutboundConnection_sound (node : H) (theirNodeId : Pk) :
    ∃ conn actOne, newOutboundConnection c m node theirNodeId = .ok (conn, actOne) ∧
      Sound conn :=
  ⟨_, _, rfl, sound_of_consistent rfl (List.forall_mem_nil _)
    ⟨by simp, by simp [Expects, newOutbound], fun h => by cases h⟩⟩

theorem Sound.panics_iff {conn : Connection Sk Pk H} (h : Sound conn) :
    conn.down = some (.fault .panic) ↔
      ∃ message ∈ conn.queued, lnMaxMsgLen < message.length := by
  rw [h.panics, NoneTooLong]
  push Not
  rfl

/-- **A connection panics exactly if the node queues a message that is too long**: for any bytes, in
any pieces, with anything the node sends, writes or does in between, on a connection that either
side has opened. -/
theorem panics_iff_long_message (node : H) (theirNodeId : Pk) (events : List Event) :
    (∃ conn actOne, newOutboundConnection c m node theirNodeId = .ok (conn, actOne) ∧
      ((conn.handleAll c m events).down = some (.fault .panic) ↔
        ∃ message ∈ (conn.handleAll c m events).queued, lnMaxMsgLen < message.length)) ∧
    (((newInboundConnection c m node).handleAll c m events).down = some (.fault .panic) ↔
      ∃ message ∈ ((newInboundConnection c m node).handleAll c m events).queued,
        lnMaxMsgLen < message.length) := by
  obtain ⟨conn, actOne, hnew, hsound⟩ := newOutboundConnection_sound c m node theirNodeId
  exact ⟨⟨conn, actOne, hnew, (handleAll_sound c m hsound events).panics_iff⟩,
    (handleAll_sound c m (newInboundConnection_sound c m node) events).panics_iff⟩

end Noise
end HiddenLightning
