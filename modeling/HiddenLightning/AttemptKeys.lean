import HiddenLightning.Resume

/-! # The key of an attempt, on both sides

`probeall` passes over a pair whose key is in the attempt table.  It makes the key of the
node as it is spelled in the node file and of the channel id; `get_attempts_str` makes it of
a row, and the row has the key of the probed node as `Display` prints it, since the node went
through the payment's path in between.  A public key has several spellings: digits in either
case, and the uncompressed form besides the compressed one.  Only one of them is printed.

So the two sides agree exactly on nodes that are spelled as they are printed
(`attempt_key_iff`); a node with one upper-case digit is probed again in every campaign.
Keys do not get mixed up, however nodes are spelled: a key determines the node and the
channel id.
-/
namespace HiddenLightning
open Numerals

variable {E : Secp256k1}

/-! ## Spellings -/

/-- 66 characters, none of them an upper-case letter. -/
def PlainKey (s : Text) : Prop := s.length = 66 ∧ ∀ c ∈ s, c.toLower = c

instance (s : Text) : Decidable (PlainKey s) := inferInstanceAs (Decidable (_ ∧ _))

theorem PublicKey.exists_of_fromText {s : Text} {key : PublicKey E}
    (h : PublicKey.fromText E s = some key) :
    ∃ bytes, bytesOfHex s = some bytes ∧ E.decode bytes = some key.bytes := by
  obtain ⟨bytes, hbytes, h⟩ := Option.bind_eq_some_iff.mp h
  refine ⟨bytes, hbytes, ?_⟩
  split at h
  · cases h
  · rename_i hdecode
    cases h
    exact hdecode

/-- The digits have no `:` among them. -/
theorem colon_notMem_of_fromText {s : Text} {key : PublicKey E}
    (h : PublicKey.fromText E s = some key) : ':' ∉ s := by
  obtain ⟨bytes, hbytes, -⟩ := PublicKey.exists_of_fromText h
  intro hmem
  have hlower : ':' ∈ hexOfBytes bytes := by
    rw [hexOfBytes_of_bytesOfHex hbytes]
    exact List.mem_map.mpr ⟨':', hmem, by decide⟩
  exact absurd (isAlphanum_of_mem_hexOfBytes hlower) (by decide)

/-- **The spelling that is printed** is the one with 66 digits and none in upper case. -/
theorem PublicKey.toText_eq_iff (hE : E.Standard) {s : Text} {key : PublicKey E}
    (h : PublicKey.fromText E s = some key) : key.toText = s ↔ PlainKey s := by
  obtain ⟨bytes, hbytes, hdecode⟩ := PublicKey.exists_of_fromText h
  have hlower := hexOfBytes_of_bytesOfHex hbytes
  constructor
  · intro hsame
    rw [← hsame]
    refine ⟨?_, fun c hc => toLower_of_mem_hexOfBytes hc⟩
    rw [PublicKey.toText, length_hexOfBytes, hE.length_key hdecode]
  · rintro ⟨hlength, hplain⟩
    have hprinted : hexOfBytes bytes = s := by
      rw [hlower, List.map_congr_left hplain, List.map_id']
    have hshort : bytes.length = 33 := by
      have := congrArg List.length hprinted
      rw [length_hexOfBytes] at this
      omega
    rw [PublicKey.toText, hE.compressed hdecode hshort, hprinted]

/-! ## Keys -/

/-- A key determines the node and the channel. -/
theorem attemptKey_inj {s s' : Text} {key key' : PublicKey E} {scid scid' : UInt64}
    (hs : PublicKey.fromText E s = some key) (hs' : PublicKey.fromText E s' = some key')
    (h : attemptKey s scid = attemptKey s' scid') : key = key' ∧ scid = scid' := by
  have hsplit : ∀ {t : Text} {k : PublicKey E} (id : UInt64), PublicKey.fromText E t = some k →
      (attemptKey t id).splitOn ':' = [t, decimal id.toNat] := by
    intro t k id ht
    rw [attemptKey, List.splitOn_append_cons_self_of_not_mem (colon_notMem_of_fromText ht),
      List.splitOn_eq_singleton (notMem_decimal (by decide))]
  have hparts := (hsplit scid hs).symm.trans ((congrArg _ h).trans (hsplit scid' hs'))
  rw [List.cons.injEq, List.cons.injEq] at hparts
  obtain ⟨hnode, hchannel, -⟩ := hparts
  refine ⟨?_, UInt64.toNat_inj.mp (decimal_injective hchannel)⟩
  rw [hnode, hs'] at hs
  exact (Option.some.inj hs).symm

/-- **The two sides agree on a pair exactly if its node is spelled as it is printed.**  For every
spelling of a node, every channel id, every probe that is sent over a path that ends with the node
and, over the channel, the guess, and every failure that is recorded with a conclusive result:
`get_attempts_str` files the row under the key that `probeall` looks up exactly if the spelling
has 66 digits and none in upper case.  And no two pairs have one key, however spelled. -/
theorem attempt_key_iff (hE : E.Standard) {us : PublicKey E} {router : Router E}
    {sendAlongPath : List (RouteHop E) → PathResult} {preimage hash : List UInt8}
    {s pubkeyGuess : Text} {scid : UInt64} {pending pending' : PaymentInfoStorage}
    {path : List (RouteHop E)}
    (hsent : probe us router sendAlongPath preimage hash s (decimal scid.toNat) pubkeyGuess
      pending = some (pending', .ok ⟨[path]⟩))
    (hpath : ∀ source guess, PublicKey.fromText E s = some source →
      PublicKey.fromText E pubkeyGuess = some guess →
      ∃ front node, path = front ++ [node, ⟨guess, scid⟩] ∧ node.pubkey = source)
    (date : Nat) {code : UInt16} (hcode : verdictOf code ≠ .unknown) (attempts : List Attempt) :
    (∃ key attempts', handlePaymentPathFailed date ⟨hash, path, some code⟩ attempts =
        some attempts' ∧
      getAttemptsStr attempts' =
        Function.update (getAttemptsStr attempts) key (some (verdictOf code)) ∧
      (key = attemptKey s scid ↔ PlainKey s)) ∧
    ∀ (t t' : Text) (p p' : PublicKey E) (id id' : UInt64), PublicKey.fromText E t = some p →
      PublicKey.fromText E t' = some p' → (p, id) ≠ (p', id') →
        attemptKey t id ≠ attemptKey t' id' := by
  obtain ⟨source, -, guess, hsource, -, hguess, -⟩ := probe_ok hsent
  obtain ⟨front, node, rfl, rfl⟩ := hpath source guess hsource hguess
  refine ⟨⟨attemptKey node.pubkey.toText scid, _, handlePaymentPathFailed_append .., ?_, ?_⟩, ?_⟩
  · rw [getAttemptsStr_snoc, if_neg hcode]
    rfl
  · rw [attemptKey, attemptKey, List.append_cancel_right_eq]
    exact PublicKey.toText_eq_iff hE hsource
  · intro t t' p p' id id' ht ht' hne heq
    obtain ⟨rfl, rfl⟩ := attemptKey_inj ht ht' heq
    exact hne rfl

/-! ## Two spellings of one node -/

theorem samplePath_ends (node : Text) (hnode : PublicKey.fromText sampleKeys node = some firstKey)
    (source guess : PublicKey sampleKeys)
    (hsource : PublicKey.fromText sampleKeys node = some source)
    (hguess : PublicKey.fromText sampleKeys hardcodedGuess = some guess) :
    ∃ front hop, samplePath = front ++ [hop, ⟨guess, sampleTx.scid⟩] ∧ hop.pubkey = source := by
  rw [hardcodedGuess_eq, PublicKey.fromText_toText] at hguess
  obtain rfl := Option.some.inj hguess
  obtain rfl := Option.some.inj (hnode.symm.trans hsource)
  exact ⟨[], ⟨firstKey, 10⟩, rfl, rfl⟩

/-- Spelled as it is printed, node 1 is found in the table. -/
theorem attempt_key_printed : ∃ attempts', handlePaymentPathFailed 0
    ⟨[], samplePath, some 0x100c⟩ [] = some attempts' ∧
      getAttemptsStr attempts' (attemptKey firstKey.toText sampleTx.scid) =
        some .feeInsufficient := by
  have hnode := PublicKey.fromText_toText firstKey
  obtain ⟨pending, hsent⟩ := exists_probe_spelled hnode sampleTx.scid
  obtain ⟨⟨key, attempts', hrow, hstr, hkey⟩, -⟩ := attempt_key_iff standard_sampleKeys hsent
    (samplePath_ends _ hnode) 0 (show verdictOf 0x100c ≠ .unknown by decide) []
  have hplain := (PublicKey.toText_eq_iff standard_sampleKeys hnode).mp rfl
  refine ⟨attempts', hrow, ?_⟩
  rw [hstr, ← hkey.mpr hplain, Function.update_self]
  rfl

/-- The key of node 1 in upper case. -/
def shoutedKey : Text := firstKey.toText.map Char.toUpper

/-- In upper case it is the same node, and probed all the same; its row is under another key, and
the pair is not found in the table. -/
theorem attempt_key_shouted : PublicKey.fromText sampleKeys shoutedKey = some firstKey ∧
    (∃ pending, probe ourKey sampleMoment.router sampleMoment.sendAlongPath sampleMoment.preimage
      sampleMoment.hash shoutedKey (decimal sampleTx.scid.toNat) hardcodedGuess
      sampleMoment.pendingPayments = some (pending, .ok ⟨[samplePath]⟩)) ∧
    ∃ row, handlePaymentPathFailed 0 ⟨[], samplePath, some 0x100c⟩ [] = some [row] ∧
      row.result ≠ .unknown ∧ row.key ≠ attemptKey shoutedKey sampleTx.scid ∧
      getAttemptsStr [row] (attemptKey shoutedKey sampleTx.scid) = none := by
  have hnode : PublicKey.fromText sampleKeys shoutedKey = some firstKey := by decide
  have hne : attemptKey firstKey.toText sampleTx.scid ≠ attemptKey shoutedKey sampleTx.scid := by
    intro h
    rw [attemptKey, attemptKey, List.append_cancel_right_eq] at h
    exact absurd h (by decide)
  refine ⟨hnode, exists_probe_spelled hnode sampleTx.scid,
    ⟨firstKey.toText, guessKey.toText, decimal sampleTx.scid.toNat, .feeInsufficient, 0⟩, rfl,
    by decide, hne, ?_⟩
  rw [← Option.not_isSome_iff_eq_none, isSome_getAttemptsStr_iff]
  rintro ⟨a, ha, -, hkey⟩
  rw [List.mem_singleton] at ha
  subst ha
  exact hne hkey

end HiddenLightning
