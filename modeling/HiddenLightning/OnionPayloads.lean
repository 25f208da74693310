import HiddenLightning.BigEndian
import HiddenLightning.Onion

/-! # The payloads of an onion

A hop's payload (`OnionHopData`) is written in an old fixed format or as a stream of records, each
with a type, a length and a value.  A reader of such a stream insists that the types increase, that
the required ones are there, and that a value is read to its end.  `readOnionHopData_readsBack` says
that a payload is read back as it was written, whatever comes after it in the packet. -/
namespace HiddenLightning
namespace Onion
open KeyStreams BigEndian

/-! ## Reading and writing -/

/-- A reader: what it has read, and the bytes after that. -/
abbrev Reader (α : Type) := Bytes → Except DecodeError (α × Bytes)

/-- `read_exact`. -/
def readExact (n : Nat) : Reader Bytes := fun bytes =>
  if bytes.length < n then .error .shortRead else .ok (bytes.take n, bytes.drop n)

/-- `Readable` for an integer of `k` bytes. -/
def readUint (k : Nat) : Reader Nat := fun bytes => do
  let (value, rest) ← readExact k bytes
  return (ofBytes value, rest)

/-- `Writeable` for `BigSize`. -/
def writeBigSize (n : Nat) : Bytes :=
  if n < 0xFD then toBytes 1 n
  else if n < 0x10000 then 0xFD :: toBytes 2 n
  else if n < 0x100000000 then 0xFE :: toBytes 4 n
  else 0xFF :: toBytes 8 n

/-- `Readable` for `BigSize`: the shortest form only. -/
def readBigSize : Reader Nat := fun bytes => do
  let (n, rest) ← readUint 1 bytes
  if n = 0xFF then
    let (x, rest) ← readUint 8 rest
    if x < 0x100000000 then .error .invalidValue else .ok (x, rest)
  else if n = 0xFE then
    let (x, rest) ← readUint 4 rest
    if x < 0x10000 then .error .invalidValue else .ok (x, rest)
  else if n = 0xFD then
    let (x, rest) ← readUint 2 rest
    if x < 0xFD then .error .invalidValue else .ok (x, rest)
  else .ok (n, rest)

/-- `VarInt` of the `bitcoin` crate, which has the lowest byte first. -/
def readVarInt : Reader Nat := fun bytes => do
  let (n, rest) ← readUint 1 bytes
  if n = 0xFF then
    let (x, rest) ← readExact 8 rest
    if ofBytes x.reverse < 0x100000000 then .error .invalidValue else .ok (ofBytes x.reverse, rest)
  else if n = 0xFE then
    let (x, rest) ← readExact 4 rest
    if ofBytes x.reverse < 0x10000 then .error .invalidValue else .ok (ofBytes x.reverse, rest)
  else if n = 0xFD then
    let (x, rest) ← readExact 2 rest
    if ofBytes x.reverse < 0xFD then .error .invalidValue else .ok (ofBytes x.reverse, rest)
  else .ok (n, rest)

/-- `Writeable` for `HighZeroBytesDroppedVarInt`, of an integer of `k` bytes. -/
def writeHighZeroBytesDropped (k n : Nat) : Bytes := dropZeros (toBytes k n)

/-- `Readable` for it: as many bytes as there are, up to `k`. -/
def readHighZeroBytesDropped (k : Nat) : Reader Nat := fun bytes =>
  let value := bytes.take k
  if value.head? = some 0 then .error .invalidValue else .ok (ofBytes value, bytes.drop k)

/-! ## Streams of records -/

/-- A field of `decode_tlv_stream!`. -/
structure TlvField (S : Type) where
  type : Nat
  required : Bool
  read : S → Reader S

variable {S : Type}

/-- `check_tlv_order!`, for all fields: no required type has been passed over. -/
def checkTlvOrder (fields : List (TlvField S)) (lastSeenType : Option Nat) (typ : Nat) : Bool :=
  fields.all fun f => !(f.required && lastSeenType.all (· < f.type) && f.type < typ)

/-- `check_missing_tlv!`, for all fields. -/
def checkMissingTlv (fields : List (TlvField S)) (lastSeenType : Option Nat) : Bool :=
  fields.all fun f => !(f.required && lastSeenType.all (· < f.type))

/-- The loop of `decode_tlv_stream!`.  Every round reads a byte at least, so that `fuel` is not
used up if it is more than the bytes. -/
def decodeTlvLoop (fields : List (TlvField S)) : (fuel : Nat) → Option Nat → S → Bytes →
    Except DecodeError (Option Nat × S)
  | 0, _, _, _ => .error .other
  | _ + 1, lastSeenType, s, [] => .ok (lastSeenType, s)
  | fuel + 1, lastSeenType, s, b :: bytes => do
    let (typ, bytes) ← readBigSize (b :: bytes)
    if lastSeenType.any (typ ≤ ·) then .error .invalidValue
    else if !checkTlvOrder fields lastSeenType typ then .error .invalidValue
    else
      let (length, bytes) ← readBigSize bytes
      let value := bytes.take length
      match fields.find? (·.type = typ) with
      | some f =>
        let (s, left) ← f.read s value
        if value.length < length then .error .shortRead
        else if left ≠ [] then .error .invalidValue
        else decodeTlvLoop fields fuel (some typ) s (bytes.drop length)
      | none =>
        if typ % 2 = 0 then .error .unknownRequiredFeature
        else if value.length < length then .error .shortRead
        else decodeTlvLoop fields fuel (some typ) s (bytes.drop length)

/-- `decode_tlv_stream!`. -/
def decodeTlvStream (fields : List (TlvField S)) (s : S) (bytes : Bytes) : Except DecodeError S := do
  let (lastSeenType, s) ← decodeTlvLoop fields (bytes.length + 1) none s bytes
  if checkMissingTlv fields lastSeenType then .ok s else .error .invalidValue

/-- `encode_tlv!`. -/
def encodeTlv (typ : Nat) (value : Bytes) : Bytes :=
  writeBigSize typ ++ writeBigSize value.length ++ value

/-- `encode_varint_length_prefixed_tlv!`. -/
def encodeVarintLengthPrefixedTlv (stream : Bytes) : Bytes := writeBigSize stream.length ++ stream

/-! ## `OnionHopData` -/

/-- An array of 32 bytes. -/
def Bytes32 : Type := { bytes : Bytes // bytes.length = 32 }

instance : DecidableEq Bytes32 := inferInstanceAs (DecidableEq { bytes : Bytes // bytes.length = 32 })

/-- `FinalOnionHopData`. -/
structure FinalOnionHopData where
  paymentSecret : Bytes32
  totalMsat : UInt64
deriving DecidableEq

/-- `OnionHopDataFormat`. -/
inductive OnionHopDataFormat where
  | legacy (shortChannelId : UInt64)
  | nonFinalNode (shortChannelId : UInt64)
  | finalNode (paymentData : Option FinalOnionHopData) (keysendPreimage : Option Bytes32)
deriving DecidableEq

/-- `OnionHopData`. -/
structure OnionHopData where
  format : OnionHopDataFormat
  amtToForward : UInt64
  outgoingCltvValue : UInt32
deriving DecidableEq

/-- `MAX_VALUE_MSAT`: 21 million bitcoins. -/
def maxValueMsat : Nat := 21000000 * 100000000 * 1000

/-- `Writeable` for `FinalOnionHopData`. -/
def FinalOnionHopData.write (data : FinalOnionHopData) : Bytes :=
  data.paymentSecret.val ++ writeHighZeroBytesDropped 8 data.totalMsat.toNat

/-- `Writeable` for `OnionHopData`. -/
def OnionHopData.write (p : OnionHopData) : Bytes :=
  let amt := encodeTlv 2 (writeHighZeroBytesDropped 8 p.amtToForward.toNat)
  let cltv := encodeTlv 4 (writeHighZeroBytesDropped 4 p.outgoingCltvValue.toNat)
  match p.format with
  | .legacy shortChannelId =>
    0 :: (toBytes 8 shortChannelId.toNat ++ toBytes 8 p.amtToForward.toNat ++
      toBytes 4 p.outgoingCltvValue.toNat ++ zeros 12)
  | .nonFinalNode shortChannelId =>
    encodeVarintLengthPrefixedTlv (amt ++ cltv ++ encodeTlv 6 (toBytes 8 shortChannelId.toNat))
  | .finalNode paymentData keysendPreimage =>
    encodeVarintLengthPrefixedTlv (amt ++ cltv ++
      (match paymentData with
        | some data => encodeTlv 8 data.write
        | none => []) ++
      (match keysendPreimage with
        | some preimage => encodeTlv 5482373484 preimage.val
        | none => []))

/-- What the records of a payload are read into. -/
structure OnionHopFields where
  amt : UInt64
  cltvValue : UInt32
  shortId : Option UInt64
  paymentData : Option FinalOnionHopData
  keysendPreimage : Option Bytes32

/-- `Readable` for 32 bytes. -/
def readBytes32 : Reader Bytes32 := fun bytes =>
  if h : bytes.length < 32 then .error .shortRead
  else .ok (⟨bytes.take 32, by simp; omega⟩, bytes.drop 32)

/-- `Readable` for `FinalOnionHopData`. -/
def readFinalOnionHopData : Reader FinalOnionHopData := fun bytes => do
  let (secret, bytes) ← readBytes32 bytes
  let (amt, bytes) ← readHighZeroBytesDropped 8 bytes
  return (⟨secret, UInt64.ofNat amt⟩, bytes)

/-- A reader whose value goes into a field. -/
def into {α : Type} (set : S → α → S) (read : Reader α) : S → Reader S := fun s bytes => do
  let (value, rest) ← read bytes
  return (set s value, rest)

/-- The fields of `decode_tlv_stream!` in the reader of `OnionHopData`. -/
def onionHopFields : List (TlvField OnionHopFields) :=
  [⟨2, true, into (fun s n => { s with amt := UInt64.ofNat n }) (readHighZeroBytesDropped 8)⟩,
    ⟨4, true, into (fun s n => { s with cltvValue := UInt32.ofNat n })
      (readHighZeroBytesDropped 4)⟩,
    ⟨6, false, into (fun s n => { s with shortId := some (UInt64.ofNat n) }) (readUint 8)⟩,
    ⟨8, false, into (fun s data => { s with paymentData := some data }) readFinalOnionHopData⟩,
    ⟨5482373484, false, into (fun s preimage => { s with keysendPreimage := some preimage })
      readBytes32⟩]

/-- What the records say the payload is. -/
def OnionHopFields.format (s : OnionHopFields) : Except DecodeError OnionHopDataFormat :=
  match s.shortId, s.paymentData with
  | some _, some _ => .error .invalidValue
  | some shortChannelId, none => .ok (.nonFinalNode shortChannelId)
  | none, none => .ok (.finalNode none s.keysendPreimage)
  | none, some data =>
    if maxValueMsat < data.totalMsat.toNat then .error .invalidValue
    else .ok (.finalNode (some data) s.keysendPreimage)

/-- The last check of the reader. -/
def checkAmount (format : OnionHopDataFormat) (amt : UInt64) (cltv : UInt32) :
    Except DecodeError OnionHopData :=
  if maxValueMsat < amt.toNat then .error .invalidValue else .ok ⟨format, amt, cltv⟩

/-- `Readable` for `OnionHopData`. -/
def readOnionHopData : Reader OnionHopData := fun bytes => do
  let (v, bytes) ← readVarInt bytes
  if v = 0 then
    let (shortChannelId, bytes) ← readUint 8 bytes
    let (amt, bytes) ← readUint 8 bytes
    let (cltv, bytes) ← readUint 4 bytes
    let (_, bytes) ← readExact 12 bytes
    let payload ← checkAmount (.legacy (UInt64.ofNat shortChannelId)) (UInt64.ofNat amt)
      (UInt32.ofNat cltv)
    return (payload, bytes)
  else
    let stream := bytes.take v
    let s ← decodeTlvStream onionHopFields ⟨0, 0, none, none, none⟩ stream
    -- `rd.eat_remaining()`
    if stream.length < v then .error .shortRead
    else
      let format ← s.format
      let payload ← checkAmount format s.amt s.cltvValue
      return (payload, bytes.drop v)

/-! ## What is written is read back -/

/-- A reader reads back what is written, whatever comes after it. -/
def ReadsBack {α : Type} (read : Reader α) (bytes : Bytes) (a : α) : Prop :=
  ∀ rest, read (bytes ++ rest) = .ok (a, rest)

theorem readExact_readsBack {n : Nat} {bytes : Bytes} (h : bytes.length = n) :
    ReadsBack (readExact n) bytes bytes := by
  intro rest
  rw [readExact, if_neg (by simp [h]), List.take_left' h, List.drop_left' h]

theorem readUint_readsBack {k n : Nat} (h : n < 256 ^ k) :
    ReadsBack (readUint k) (toBytes k n) n := by
  intro rest
  rw [readUint, readExact_readsBack (length_toBytes k n)]
  simp [bind, Except.bind, pure, Except.pure, ofBytes_toBytes h]

theorem readUint_cons (b : UInt8) (rest : Bytes) : readUint 1 (b :: rest) = .ok (b.toNat, rest) := by
  simp [readUint, readExact, bind, Except.bind, pure, Except.pure, ofBytes]

theorem readBigSize_readsBack {n : Nat} (h : n < 2 ^ 64) :
    ReadsBack readBigSize (writeBigSize n) n := by
  intro rest
  unfold writeBigSize readBigSize
  split
  · rename_i hsmall
    rw [readUint_readsBack (by omega)]
    simp only [bind, Except.bind]
    rw [if_neg (by omega), if_neg (by omega), if_neg (by omega)]
  split
  · rename_i hlarge hsmall
    rw [List.cons_append, readUint_cons]
    simp only [bind, Except.bind, UInt8.reduceToNat]
    rw [if_neg (by decide), if_neg (by decide), if_pos trivial, readUint_readsBack (by omega)]
    dsimp only
    rw [if_neg (by omega)]
  split
  · rename_i _ hlarge hsmall
    rw [List.cons_append, readUint_cons]
    simp only [bind, Except.bind, UInt8.reduceToNat]
    rw [if_neg (by decide), if_pos trivial, readUint_readsBack (by omega)]
    dsimp only
    rw [if_neg (by omega)]
  · rename_i _ _ hlarge
    rw [List.cons_append, readUint_cons]
    simp only [bind, Except.bind, UInt8.reduceToNat]
    rw [if_pos trivial, readUint_readsBack (by omega)]
    dsimp only
    rw [if_neg (by omega)]

/-- A length that is a single byte is one for `VarInt` too. -/
theorem readVarInt_readsBack {n : Nat} (h : n < 0xFD) : ReadsBack readVarInt (writeBigSize n) n := by
  intro rest
  rw [writeBigSize, if_pos h, readVarInt, readUint_readsBack (by omega)]
  simp only [bind, Except.bind]
  rw [if_neg (by omega), if_neg (by omega), if_neg (by omega)]

/-- A number without its high zero bytes is read back from a value of its own. -/
theorem readHighZeroBytesDropped_write {k n : Nat} (h : n < 256 ^ k) :
    readHighZeroBytesDropped k (writeHighZeroBytesDropped k n) = .ok (n, []) := by
  have hlen : (writeHighZeroBytesDropped k n).length ≤ k := by
    have hle := length_dropZeros_le (toBytes k n)
    rwa [length_toBytes] at hle
  have hhead : (writeHighZeroBytesDropped k n).head? ≠ some 0 := by
    intro hzero
    obtain ⟨rest, hrest⟩ : ∃ rest, dropZeros (toBytes k n) = 0 :: rest :=
      List.head?_eq_some_iff.mp hzero
    exact head_dropZeros hrest rfl
  rw [readHighZeroBytesDropped, List.take_of_length_le hlen, List.drop_of_length_le hlen,
    if_neg hhead, writeHighZeroBytesDropped, ofBytes_dropZeros, ofBytes_toBytes h]

theorem readBytes32_readsBack (b : Bytes32) : ReadsBack readBytes32 b.val b := by
  intro rest
  have hlen := b.property
  have htake : (b.val ++ rest).take 32 = b.val := List.take_left' hlen
  rw [readBytes32, dif_neg (by simp [hlen]), List.drop_left' hlen]
  simp only [htake]
  rfl

theorem writeBigSize_ne_nil (n : Nat) : writeBigSize n ≠ [] := by
  unfold writeBigSize
  split
  · simp [toBytes]
  split
  · simp
  split <;> simp

/-- A record of a field that is next in order is read into the field. -/
theorem decodeTlvLoop_encodeTlv {α : Type} {fields : List (TlvField S)} {typ : Nat}
    {required : Bool} {set : S → α → S} {read : Reader α} {value : Bytes} {a : α}
    (hread : read value = .ok (a, [])) {lastSeenType : Option Nat}
    (hfield : fields.find? (·.type = typ) = some ⟨typ, required, into set read⟩)
    (hnext : lastSeenType.all (· < typ) = true)
    (horder : checkTlvOrder fields lastSeenType typ = true) (htyp : typ < 2 ^ 64)
    (hlen : value.length < 2 ^ 64) (s : S) (rest : Bytes) (fuel : Nat) :
    decodeTlvLoop fields (fuel + 1) lastSeenType s (encodeTlv typ value ++ rest) =
      decodeTlvLoop fields fuel (some typ) (set s a) rest := by
  obtain ⟨b, bytes, hcons⟩ := List.exists_cons_of_ne_nil (writeBigSize_ne_nil typ)
  have hbytes : encodeTlv typ value ++ rest =
      b :: (bytes ++ (writeBigSize value.length ++ (value ++ rest))) := by
    simp [encodeTlv, hcons]
  have htype : readBigSize (b :: (bytes ++ (writeBigSize value.length ++ (value ++ rest)))) =
      .ok (typ, writeBigSize value.length ++ (value ++ rest)) := by
    rw [← List.cons_append, ← hcons]
    exact readBigSize_readsBack htyp _
  have hincreasing : lastSeenType.any (typ ≤ ·) = false := by
    cases lastSeenType with
    | none => rfl
    | some t => simpa using hnext
  rw [hbytes, decodeTlvLoop, htype]
  simp only [bind, Except.bind, hincreasing, Bool.false_eq_true, if_false, horder, Bool.not_true]
  rw [readBigSize_readsBack hlen]
  simp only [hfield, List.take_left, List.drop_left, into, hread, bind, Except.bind, pure,
    Except.pure, Nat.lt_irrefl, if_false, ne_eq, not_true_eq_false]

theorem readAmount_write (x : UInt64) :
    readHighZeroBytesDropped 8 (writeHighZeroBytesDropped 8 x.toNat) = .ok (x.toNat, []) :=
  readHighZeroBytesDropped_write (x.toNat_lt.trans_eq (by norm_num))

theorem readCltv_write (x : UInt32) :
    readHighZeroBytesDropped 4 (writeHighZeroBytesDropped 4 x.toNat) = .ok (x.toNat, []) :=
  readHighZeroBytesDropped_write (x.toNat_lt.trans_eq (by norm_num))

theorem readUint64_readsBack (x : UInt64) : ReadsBack (readUint 8) (toBytes 8 x.toNat) x.toNat :=
  readUint_readsBack (x.toNat_lt.trans_eq (by norm_num))

theorem readUint32_readsBack (x : UInt32) : ReadsBack (readUint 4) (toBytes 4 x.toNat) x.toNat :=
  readUint_readsBack (x.toNat_lt.trans_eq (by norm_num))

theorem readFinalOnionHopData_write (data : FinalOnionHopData) :
    readFinalOnionHopData data.write = .ok (data, []) := by
  rw [readFinalOnionHopData, FinalOnionHopData.write, readBytes32_readsBack]
  simp only [bind, Except.bind]
  rw [readAmount_write]
  simp [pure, Except.pure]

theorem ReadsBack.nil {α : Type} {read : Reader α} {bytes : Bytes} {a : α}
    (h : ReadsBack read bytes a) : read bytes = .ok (a, []) := by
  simpa using h []

/-- The two records every payload has. -/
def amountRecords (p : OnionHopData) : Bytes :=
  encodeTlv 2 (writeHighZeroBytesDropped 8 p.amtToForward.toNat) ++
    encodeTlv 4 (writeHighZeroBytesDropped 4 p.outgoingCltvValue.toNat)

theorem length_writeHighZeroBytesDropped_le (k n : Nat) :
    (writeHighZeroBytesDropped k n).length ≤ k := by
  have hle := length_dropZeros_le (toBytes k n)
  rwa [length_toBytes] at hle

theorem decodeTlvLoop_amountRecords (p : OnionHopData) (rest : Bytes) (fuel : Nat)
    (s : OnionHopFields) :
    decodeTlvLoop onionHopFields (fuel + 2) none s (amountRecords p ++ rest) =
      decodeTlvLoop onionHopFields fuel (some 4)
        { s with amt := p.amtToForward, cltvValue := p.outgoingCltvValue } rest := by
  have hamt := length_writeHighZeroBytesDropped_le 8 p.amtToForward.toNat
  have hcltv := length_writeHighZeroBytesDropped_le 4 p.outgoingCltvValue.toNat
  rw [amountRecords, List.append_assoc,
    decodeTlvLoop_encodeTlv (readAmount_write p.amtToForward) rfl rfl rfl (by decide) (by omega),
    decodeTlvLoop_encodeTlv (readCltv_write p.outgoingCltvValue) rfl rfl rfl (by decide) (by omega)]
  simp

/-- The records of a payload that is not in the old format. -/
def OnionHopDataFormat.records : OnionHopDataFormat → Bytes
  | .legacy _ => []
  | .nonFinalNode shortChannelId => encodeTlv 6 (toBytes 8 shortChannelId.toNat)
  | .finalNode paymentData keysendPreimage =>
    (match paymentData with
      | some data => encodeTlv 8 data.write
      | none => []) ++
    (match keysendPreimage with
      | some preimage => encodeTlv 5482373484 preimage.val
      | none => [])

/-- The fields they are read into. -/
def OnionHopDataFormat.fields (s : OnionHopFields) : OnionHopDataFormat → OnionHopFields
  | .legacy _ => s
  | .nonFinalNode shortChannelId => { s with shortId := some shortChannelId }
  | .finalNode paymentData keysendPreimage =>
    { s with paymentData := paymentData.or s.paymentData
             keysendPreimage := keysendPreimage.or s.keysendPreimage }

theorem length_finalOnionHopData_le (data : FinalOnionHopData) : data.write.length ≤ 40 := by
  have hsecret := data.paymentSecret.property
  have hamt := length_writeHighZeroBytesDropped_le 8 data.totalMsat.toNat
  simp only [FinalOnionHopData.write, List.length_append]
  omega

theorem decodeTlvLoop_nil (fields : List (TlvField S)) (fuel : Nat) (last : Option Nat) (s : S) :
    decodeTlvLoop fields (fuel + 1) last s [] = .ok (last, s) := rfl

theorem decodeTlvLoop_records (format : OnionHopDataFormat) (fuel : Nat) (s : OnionHopFields) :
    ∃ last, 4 ≤ last ∧ decodeTlvLoop onionHopFields (fuel + 3) (some 4) s format.records =
      .ok (some last, format.fields s) := by
  have hpreimage : ∀ (preimage : Bytes32) (last : Nat) (fuel : Nat) (s : OnionHopFields),
      last = 4 ∨ last = 8 → decodeTlvLoop onionHopFields (fuel + 2) (some last) s
        (encodeTlv 5482373484 preimage.val) =
        .ok (some 5482373484, { s with keysendPreimage := some preimage }) := by
    intro preimage last fuel s hlast
    have hlen := preimage.property
    rw [← List.append_nil (encodeTlv 5482373484 _)]
    rcases hlast with rfl | rfl
    · rw [decodeTlvLoop_encodeTlv (readBytes32_readsBack preimage).nil rfl rfl rfl (by decide)
        (by omega), decodeTlvLoop_nil]
    · rw [decodeTlvLoop_encodeTlv (readBytes32_readsBack preimage).nil rfl rfl rfl (by decide)
        (by omega), decodeTlvLoop_nil]
  cases format with
  | legacy _ => exact ⟨4, le_rfl, rfl⟩
  | nonFinalNode shortChannelId =>
    refine ⟨6, by decide, ?_⟩
    rw [OnionHopDataFormat.records, ← List.append_nil (encodeTlv 6 _),
      decodeTlvLoop_encodeTlv (readUint64_readsBack shortChannelId).nil rfl rfl rfl (by decide)
        (by simp), decodeTlvLoop_nil]
    simp [OnionHopDataFormat.fields]
  | finalNode paymentData keysendPreimage =>
    rcases paymentData with _ | data
    · rcases keysendPreimage with _ | preimage
      · exact ⟨4, le_rfl, rfl⟩
      · exact ⟨_, by decide, hpreimage preimage 4 (fuel + 1) s (.inl rfl)⟩
    · have hlen := length_finalOnionHopData_le data
      have hdata : ∀ rest fuel, decodeTlvLoop onionHopFields (fuel + 1) (some 4) s
          (encodeTlv 8 data.write ++ rest) =
          decodeTlvLoop onionHopFields fuel (some 8) { s with paymentData := some data } rest := by
        intro rest fuel
        rw [decodeTlvLoop_encodeTlv (readFinalOnionHopData_write data) rfl rfl rfl (by decide)
          (by omega)]
      rcases keysendPreimage with _ | preimage
      · exact ⟨8, by decide, hdata [] (fuel + 2)⟩
      · refine ⟨5482373484, by decide, (hdata _ (fuel + 2)).trans ?_⟩
        exact hpreimage preimage 8 fuel _ (.inr rfl)

/-- What a payload is written as, if not in the old format. -/
theorem OnionHopData.write_eq {p : OnionHopData} (h : ∀ id, p.format ≠ .legacy id) :
    p.write = encodeVarintLengthPrefixedTlv (amountRecords p ++ p.format.records) := by
  obtain ⟨format, amt, cltv⟩ := p
  cases format with
  | legacy id => exact absurd rfl (h id)
  | nonFinalNode id => rfl
  | finalNode paymentData keysendPreimage =>
    simp only [OnionHopData.write, amountRecords, OnionHopDataFormat.records, List.append_assoc]

/-- A payload the reader takes: its amounts are not more than there are. -/
def OnionHopData.Payable (p : OnionHopData) : Prop :=
  p.amtToForward.toNat ≤ maxValueMsat ∧
    ∀ data keysendPreimage, p.format = .finalNode (some data) keysendPreimage →
      data.totalMsat.toNat ≤ maxValueMsat

/-- A payload takes a single byte for its length, so that it does not matter that the length is
written as one kind of number and read as another. -/
theorem length_records_lt (p : OnionHopData) :
    (amountRecords p ++ p.format.records).length < 0xFD := by
  have hamt := length_writeHighZeroBytesDropped_le 8 p.amtToForward.toNat
  have hcltv := length_writeHighZeroBytesDropped_le 4 p.outgoingCltvValue.toNat
  have hsmall : ∀ n, n < 0xFD → (writeBigSize n).length = 1 := by
    intro n hn
    simp [writeBigSize, hn]
  have hbig : (writeBigSize 5482373484).length = 9 := by decide
  have htlv : ∀ typ (value : Bytes), value.length ≤ 40 →
      (encodeTlv typ value).length ≤ (writeBigSize typ).length + 41 := by
    intro typ value hvalue
    simp only [encodeTlv, List.length_append, hsmall value.length (by omega)]
    omega
  have hrecords : p.format.records.length ≤ 92 := by
    cases p.format with
    | legacy _ => simp [OnionHopDataFormat.records]
    | nonFinalNode id =>
      have h := htlv 6 (toBytes 8 id.toNat) (by simp)
      rw [hsmall 6 (by decide)] at h
      simp only [OnionHopDataFormat.records]
      omega
    | finalNode paymentData keysendPreimage =>
      have hdata : ∀ data : FinalOnionHopData, (encodeTlv 8 data.write).length ≤ 42 := by
        intro data
        have h := htlv 8 data.write (length_finalOnionHopData_le data)
        rwa [hsmall 8 (by decide)] at h
      have hpreimage : ∀ b : Bytes32, (encodeTlv 5482373484 b.val).length ≤ 50 := by
        intro b
        have h := htlv 5482373484 b.val (by simp [b.property])
        rwa [hbig] at h
      simp only [OnionHopDataFormat.records, List.length_append]
      rcases paymentData with _ | data <;> rcases keysendPreimage with _ | preimage
      · simp
      · simpa using (hpreimage preimage).trans (by decide)
      · simpa using (hdata data).trans (by decide)
      · exact Nat.add_le_add (hdata data) (hpreimage preimage)
  have htwo := htlv 2 (writeHighZeroBytesDropped 8 p.amtToForward.toNat) (by omega)
  have hfour := htlv 4 (writeHighZeroBytesDropped 4 p.outgoingCltvValue.toNat) (by omega)
  rw [hsmall 2 (by decide)] at htwo
  rw [hsmall 4 (by decide)] at hfour
  simp only [amountRecords, List.length_append]
  omega

/-- The records are read back. -/
theorem decodeTlvStream_records (p : OnionHopData) (s : OnionHopFields) :
    decodeTlvStream onionHopFields s (amountRecords p ++ p.format.records) =
      .ok (p.format.fields
        { s with amt := p.amtToForward, cltvValue := p.outgoingCltvValue }) := by
  have hlen : 4 ≤ (amountRecords p).length := by
    have hpos : ∀ n, 0 < (writeBigSize n).length :=
      fun n => List.length_pos_iff.mpr (writeBigSize_ne_nil n)
    have h₁ := hpos 2
    have h₂ := hpos (writeHighZeroBytesDropped 8 p.amtToForward.toNat).length
    have h₃ := hpos 4
    have h₄ := hpos (writeHighZeroBytesDropped 4 p.outgoingCltvValue.toNat).length
    simp only [amountRecords, encodeTlv, List.length_append]
    omega
  obtain ⟨last, hlast, hrecords⟩ := decodeTlvLoop_records p.format
    ((amountRecords p ++ p.format.records).length - 4)
    { s with amt := p.amtToForward, cltvValue := p.outgoingCltvValue }
  have hmissing : checkMissingTlv onionHopFields (some last) = true := by
    simp [checkMissingTlv, onionHopFields]
    omega
  rw [decodeTlvStream, show (amountRecords p ++ p.format.records).length + 1 =
    (amountRecords p ++ p.format.records).length - 4 + 3 + 2 by
      simp only [List.length_append]; omega, decodeTlvLoop_amountRecords, hrecords]
  simp [bind, Except.bind, hmissing]

theorem checkAmount_eq {format : OnionHopDataFormat} {amt : UInt64} (cltv : UInt32)
    (h : amt.toNat ≤ maxValueMsat) : checkAmount format amt cltv = .ok ⟨format, amt, cltv⟩ :=
  if_neg (Nat.not_lt.mpr h)

theorem read_legacy (id amt : UInt64) (cltv : UInt32) (h : amt.toNat ≤ maxValueMsat) :
    ReadsBack readOnionHopData (OnionHopData.write ⟨.legacy id, amt, cltv⟩)
      ⟨.legacy id, amt, cltv⟩ := by
  intro rest
  have hzero : readVarInt (0 :: (toBytes 8 id.toNat ++ (toBytes 8 amt.toNat ++
      (toBytes 4 cltv.toNat ++ (zeros 12 ++ rest))))) = .ok (0, toBytes 8 id.toNat ++
      (toBytes 8 amt.toNat ++ (toBytes 4 cltv.toNat ++ (zeros 12 ++ rest)))) :=
    readVarInt_readsBack (by decide : 0 < 0xFD) _
  simp only [OnionHopData.write, List.cons_append, List.append_assoc]
  rw [readOnionHopData, hzero]
  simp only [bind, Except.bind, if_true]
  rw [readUint64_readsBack]
  dsimp only
  rw [readUint64_readsBack]
  dsimp only
  rw [readUint32_readsBack]
  dsimp only
  rw [readExact_readsBack (length_zeros 12)]
  simp only [UInt64.ofNat_toNat, UInt32.ofNat_toNat, checkAmount_eq cltv h, pure, Except.pure]

/-- The fields say what the payload was. -/
theorem format_fields {p : OnionHopData} (hp : p.Payable) (hformat : ∀ id, p.format ≠ .legacy id)
    (amt : UInt64) (cltv : UInt32) :
    (p.format.fields ⟨amt, cltv, none, none, none⟩).format = .ok p.format := by
  obtain ⟨format, amt', cltv'⟩ := p
  cases format with
  | legacy id => exact absurd rfl (hformat id)
  | nonFinalNode id => rfl
  | finalNode paymentData keysendPreimage =>
    rcases paymentData with _ | data
    · simp [OnionHopDataFormat.fields, OnionHopFields.format]
    · have htotal := hp.2 data keysendPreimage rfl
      simp [OnionHopDataFormat.fields, OnionHopFields.format, Nat.not_lt.mpr htotal]

theorem fields_amounts (format : OnionHopDataFormat) (s : OnionHopFields) :
    (format.fields s).amt = s.amt ∧ (format.fields s).cltvValue = s.cltvValue := by
  cases format <;> exact ⟨rfl, rfl⟩

/-- A payload is read back as it was written, whatever comes after it. -/
theorem readOnionHopData_readsBack {p : OnionHopData} (hp : p.Payable) :
    ReadsBack readOnionHopData p.write p := by
  by_cases hlegacy : ∃ id, p.format = .legacy id
  · obtain ⟨id, hid⟩ := hlegacy
    obtain ⟨format, amt, cltv⟩ := p
    subst hid
    exact read_legacy id amt cltv hp.1
  · intro rest
    have hformat : ∀ id, p.format ≠ .legacy id := fun id hid => hlegacy ⟨id, hid⟩
    have hne : (amountRecords p ++ p.format.records).length ≠ 0 := by
      have hpos := List.length_pos_iff.mpr (writeBigSize_ne_nil 2)
      simp only [amountRecords, encodeTlv, List.length_append]
      omega
    obtain ⟨hamt, hcltv⟩ := fields_amounts p.format
      ⟨p.amtToForward, p.outgoingCltvValue, none, none, none⟩
    rw [OnionHopData.write_eq hformat, encodeVarintLengthPrefixedTlv, readOnionHopData,
      List.append_assoc, readVarInt_readsBack (length_records_lt p)]
    simp only [bind, Except.bind]
    rw [if_neg hne, List.take_left, decodeTlvStream_records]
    simp only [Nat.lt_irrefl, if_false, format_fields hp hformat, hamt, hcltv, List.drop_left,
      checkAmount_eq p.outgoingCltvValue hp.1, pure, Except.pure]

-- a vector of the repository's tests
example : OnionHopData.write ⟨.nonFinalNode 0xdeadbeef1bad1dea, 0x0badf00d01020304, 0xffffffff⟩ =
    [0x1a, 0x02, 0x08, 0x0b, 0xad, 0xf0, 0x0d, 0x01, 0x02, 0x03, 0x04, 0x04, 0x04, 0xff, 0xff, 0xff,
      0xff, 0x06, 0x08, 0xde, 0xad, 0xbe, 0xef, 0x1b, 0xad, 0x1d, 0xea] := by decide

end Onion
end HiddenLightning
