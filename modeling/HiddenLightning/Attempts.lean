import HiddenLightning.Numerals

/-! # Failed payments and the attempt table

A probe is a payment that is bound to fail, and how it fails is the finding.  When a
payment path fails, LDK raises `PaymentPathFailed` with the path and, if the failure
packet authenticates at some hop, the error code in it (`processOnionFailure`).
`handle_ldk_events` (`main.rs`) takes the path's last hop for the guessed node and
channel and the hop before for the probed node, names the code, and inserts a row into
the attempt table.  `get_attempts_found` and `get_attempts_str` (`cli.rs`) read the
table back: the rows that report a channel, and the pairs a campaign need not probe
again.

The handler never asks which hop reported the failure.  `verdict_from_probed_iff` says
what that costs: a conclusive verdict about the last channel is right only if one of the
last two hops reported it, and every other hop can send the same codes.
-/
namespace HiddenLightning
open Numerals

/-! ## Public keys -/

/-- The decoder of public keys (`PublicKey::from_slice`): `decode` gives the compressed
form of the point that a 33- or 65-byte encoding stands for. -/
structure Secp256k1 where
  decode : List UInt8 → Option (List UInt8)
  decode_decode : ∀ {bytes key}, decode bytes = some key → decode key = some key

/-- **What is assumed of the decoder** where the lengths matter: it takes encodings of 33 and of
65 bytes, and the compressed form has 33 and stands for itself. -/
structure Secp256k1.Standard (E : Secp256k1) : Prop where
  length_bytes : ∀ {bytes key}, E.decode bytes = some key → bytes.length = 33 ∨ bytes.length = 65
  length_key : ∀ {bytes key}, E.decode bytes = some key → key.length = 33
  compressed : ∀ {bytes key}, E.decode bytes = some key → bytes.length = 33 → key = bytes

/-- A public key, as its compressed encoding. -/
@[ext] structure PublicKey (E : Secp256k1) where
  bytes : List UInt8
  decode_bytes : E.decode bytes = some bytes

variable {E : Secp256k1}

instance : DecidableEq (PublicKey E) := fun p q =>
  decidable_of_iff (p.bytes = q.bytes) ⟨PublicKey.ext, fun h => h ▸ rfl⟩

/-- `PublicKey`'s `Display`. -/
def PublicKey.toText (p : PublicKey E) : Text := hexOfBytes p.bytes

variable (E) in
/-- `PublicKey::from_str`. -/
def PublicKey.fromText (s : Text) : Option (PublicKey E) :=
  (bytesOfHex s).bind fun bytes =>
    match h : E.decode bytes with
    | none => none
    | some key => some ⟨key, E.decode_decode h⟩

@[simp] theorem PublicKey.fromText_toText (p : PublicKey E) :
    PublicKey.fromText E p.toText = some p := by
  rw [PublicKey.fromText, PublicKey.toText, bytesOfHex_hexOfBytes, Option.bind_some]
  split
  · rename_i h
    rw [p.decode_bytes] at h
    cases h
  · rename_i key h
    rw [p.decode_bytes] at h
    cases h
    rfl

/-! ## Failures -/

variable (E) in
/-- A hop of a path: the node, and the channel into it. -/
structure RouteHop where
  pubkey : PublicKey E
  shortChannelId : UInt64
deriving DecidableEq

variable (E) in
/-- `Event::PaymentPathFailed`. -/
structure PaymentPathFailed where
  paymentHash : List UInt8
  path : List (RouteHop E)
  errorCode : Option UInt16

/-- `u16::from_be_bytes`. -/
def codeOfBytes (hi lo : UInt8) : UInt16 := UInt16.ofNat (hi.toNat * 256 + lo.toNat)

/-- The error code `process_onion_failure` returns.  The failure packet is decrypted hop by
hop; each entry is the failure message if the packet authenticates at that hop.  The first
hop where it does ends the search, and a message of fewer than two bytes has no code. -/
def processOnionFailure : List (Option (List UInt8)) → Option UInt16
  | [] => none
  | none :: hops => processOnionFailure hops
  | some (hi :: lo :: _) :: _ => some (codeOfBytes hi lo)
  | some _ :: _ => none

/-- Hop `k`'s node reported the failure, with the given code. -/
inductive ReportedBy : List (Option (List UInt8)) → Nat → UInt16 → Prop
  | here (hi lo : UInt8) (data : List UInt8) (hops : List (Option (List UInt8))) :
      ReportedBy (some (hi :: lo :: data) :: hops) 0 (codeOfBytes hi lo)
  | later {hops : List (Option (List UInt8))} {k : Nat} {code : UInt16}
      (h : ReportedBy hops k code) : ReportedBy (none :: hops) (k + 1) code

theorem ReportedBy.processOnionFailure_eq {hops : List (Option (List UInt8))} {k : Nat}
    {code : UInt16} (h : ReportedBy hops k code) : processOnionFailure hops = some code := by
  induction h with
  | here => rfl
  | later _ ih => exact ih

/-! ## Rows -/

/-- The texts of the `result` column. -/
inductive Verdict where
  | incorrectOrUnknownPaymentDetails
  | feeInsufficient
  | invalidOnionHmac
  | incorrectCltvExpiry
  | amountBelowMinimum
  | unknownNextPeer
  | unknown
deriving DecidableEq

/-- The handler's table of codes. -/
def verdictOf (errorCode : UInt16) : Verdict :=
  if errorCode = 0x400f then .incorrectOrUnknownPaymentDetails  -- bingo
  else if errorCode = 0x100c then .feeInsufficient              -- channel found, wrong fee
  else if errorCode = 0xc005 then .invalidOnionHmac             -- channel found, wrong node
  else if errorCode = 0x100d then .incorrectCltvExpiry          -- channel found, wrong cltv
  else if errorCode = 0x100b then .amountBelowMinimum           -- channel found, amount below minimum
  else if errorCode = 0x400a then .unknownNextPeer              -- no channel found
  else .unknown

/-- The codes with a verdict of their own. -/
def conclusiveCodes : List UInt16 := [0x400f, 0x100c, 0xc005, 0x100d, 0x100b, 0x400a]

theorem verdictOf_eq_unknown_iff (errorCode : UInt16) :
    verdictOf errorCode = .unknown ↔ errorCode ∉ conclusiveCodes := by
  unfold verdictOf conclusiveCodes
  split_ifs <;> simp_all

/-- A row of the attempt table. -/
structure Attempt where
  targetPubkey : Text
  guessPubkey : Text
  channelId : Text
  result : Verdict
  dateFound : Nat
deriving DecidableEq

/-- The row for a path, a code and a time; `none` when the path has one hop only. -/
def attemptRow (date : Nat) (path : List (RouteHop E)) (errorCode : UInt16) : Option Attempt :=
  match path.reverse with
  | last :: node :: _ => some {
      targetPubkey := node.pubkey.toText
      guessPubkey := last.pubkey.toText
      channelId := decimal last.shortChannelId.toNat
      result := verdictOf errorCode
      dateFound := date }
  | _ => none

/-- The `PaymentPathFailed` branch of `handle_ldk_events`, on the attempt table; `none` when
it panics, on an empty path. -/
def handlePaymentPathFailed (date : Nat) (ev : PaymentPathFailed E) (attempts : List Attempt) :
    Option (List Attempt) :=
  match ev.path with
  | [] => none
  | path => some (attempts ++ (ev.errorCode.bind (attemptRow date path)).toList)

/-- **A row is inserted exactly for a failure with a code on a path of two hops or more.** -/
theorem handlePaymentPathFailed_eq {date : Nat} {ev : PaymentPathFailed E}
    {attempts attempts' : List Attempt}
    (h : handlePaymentPathFailed date ev attempts = some attempts') :
    (attempts' = attempts ∧ (ev.path.length ≤ 1 ∨ ev.errorCode = none)) ∨
    ∃ front node last code, ev.path = front ++ [node, last] ∧ ev.errorCode = some code ∧
      attempts' = attempts ++ [{
        targetPubkey := node.pubkey.toText
        guessPubkey := last.pubkey.toText
        channelId := decimal last.shortChannelId.toNat
        result := verdictOf code
        dateFound := date }] := by
  rw [handlePaymentPathFailed] at h
  split at h
  · cases h
  · rename_i path _
    cases h
    cases hcode : ev.errorCode with
    | none => exact Or.inl ⟨List.append_nil _, Or.inr rfl⟩
    | some code =>
      rw [Option.bind_some, attemptRow]
      split
      · rename_i last node rest hrev
        refine Or.inr ⟨rest.reverse, node, last, code, ?_, rfl, rfl⟩
        rw [← List.reverse_reverse ev.path, hrev]
        simp
      · rename_i hshort
        refine Or.inl ⟨List.append_nil _, Or.inl ?_⟩
        by_contra hlong
        rw [← List.length_reverse] at hlong
        obtain ⟨last, node, rest, hrev⟩ :
            ∃ last node rest, ev.path.reverse = last :: node :: rest := by
          match hr : ev.path.reverse with
          | [] => simp [hr] at hlong
          | [_] => simp [hr] at hlong
          | last :: node :: rest => exact ⟨last, node, rest, rfl⟩
        exact hshort last node rest hrev

theorem handlePaymentPathFailed_append (date : Nat) (hash : List UInt8) (front : List (RouteHop E))
    (node last : RouteHop E) (code : UInt16) (attempts : List Attempt) :
    handlePaymentPathFailed date ⟨hash, front ++ [node, last], some code⟩ attempts =
      some (attempts ++ [⟨node.pubkey.toText, last.pubkey.toText,
        decimal last.shortChannelId.toNat, verdictOf code, date⟩]) := by
  rw [handlePaymentPathFailed]
  split
  · rename_i hnil
    simp at hnil
  · simp [attemptRow]

/-! ## Reading the table -/

/-- `get_attempts_found`. -/
def getAttemptsFound (attempts : List Attempt) : List Attempt :=
  attempts.filter fun a => a.result ≠ .unknown ∧ a.result ≠ .unknownNextPeer

/-- The key of a row: `format!("{}:{}", attempt.target_pubkey, attempt.channel_id)`. -/
def Attempt.key (a : Attempt) : Text := a.targetPubkey ++ ':' :: a.channelId

/-- `get_attempts_str`. -/
def getAttemptsStr (attempts : List Attempt) : Text → Option Verdict :=
  attempts.foldl (fun map a =>
    if a.result = .unknown then map else Function.update map a.key (some a.result)) fun _ => none

theorem getAttemptsStr_snoc (attempts : List Attempt) (a : Attempt) :
    getAttemptsStr (attempts ++ [a]) = if a.result = .unknown then getAttemptsStr attempts
      else Function.update (getAttemptsStr attempts) a.key (some a.result) := by
  rw [getAttemptsStr, List.foldl_append]
  rfl

/-- **A pair counts as attempted exactly if some row for it is conclusive**, whatever rows
stand before or after it. -/
theorem isSome_getAttemptsStr_iff (attempts : List Attempt) (key : Text) :
    (getAttemptsStr attempts key).isSome ↔ ∃ a ∈ attempts, a.result ≠ .unknown ∧ a.key = key := by
  induction attempts using List.reverseRecOn with
  | nil => simp [getAttemptsStr]
  | append_singleton attempts a ih =>
    rw [getAttemptsStr_snoc]
    simp only [List.mem_append, List.mem_singleton, or_and_right, exists_or, exists_eq_left]
    by_cases hres : a.result = .unknown
    · rw [if_pos hres, ih]
      simp [hres]
    · rw [if_neg hres, Function.update_apply]
      by_cases hkey : key = a.key
      · simp [hkey, hres]
      · rw [if_neg hkey, ih]
        simp [Ne.symm hkey]

/-- An inconclusive row changes nothing that is read. -/
theorem readers_snoc_unknown (attempts : List Attempt) {a : Attempt} (h : a.result = .unknown) :
    getAttemptsFound (attempts ++ [a]) = getAttemptsFound attempts ∧
      getAttemptsStr (attempts ++ [a]) = getAttemptsStr attempts := by
  constructor
  · simp [getAttemptsFound, List.filter_append, h]
  · rw [getAttemptsStr_snoc, if_pos h]

/-! ## Who reported the failure -/

/-- **The verdict comes from the probed node exactly if one of the last two hops reported the
failure, or the code has no verdict.**  For every path of two hops or more, every hop `k` that
reports the failure and every code: a row is inserted; its result is conclusive only if `k` is
one of the last two hops; and a failure reported by an earlier hop shows up in neither reader
of the table. -/
theorem verdict_from_probed_iff (date : Nat) (hash : List UInt8) {path : List (RouteHop E)}
    (hpath : 2 ≤ path.length) {hops : List (Option (List UInt8))} {k : Nat} {code : UInt16}
    (hk : ReportedBy hops k code) (attempts : List Attempt) :
    (∃ row, handlePaymentPathFailed date ⟨hash, path, processOnionFailure hops⟩ attempts =
        some (attempts ++ [row]) ∧
      (row.result ≠ .unknown → path.length ≤ k + 2) ∧
      (k + 2 < path.length → getAttemptsFound (attempts ++ [row]) = getAttemptsFound attempts ∧
        getAttemptsStr (attempts ++ [row]) = getAttemptsStr attempts)) ↔
    path.length ≤ k + 2 ∨ code ∉ conclusiveCodes := by
  obtain ⟨attempts', hh⟩ : ∃ attempts', handlePaymentPathFailed date
      ⟨hash, path, processOnionFailure hops⟩ attempts = some attempts' := by
    cases path with
    | nil => simp at hpath
    | cons hop rest => exact ⟨_, rfl⟩
  rw [hh]
  obtain ⟨-, hnone⟩ | ⟨front, node, last, code', -, hcode, hrow⟩ := handlePaymentPathFailed_eq hh
  · rcases hnone with hshort | hnone
    · have hshort' : path.length ≤ 1 := hshort
      omega
    · rw [hk.processOnionFailure_eq] at hnone
      cases hnone
  · rw [hk.processOnionFailure_eq] at hcode
    cases hcode
    subst hrow
    constructor
    · rintro ⟨row, heq, hverdict, -⟩
      have hrow := List.append_cancel_left (Option.some.inj heq)
      rw [List.singleton_inj] at hrow
      subst hrow
      by_cases hlast : path.length ≤ k + 2
      · exact Or.inl hlast
      · exact Or.inr ((verdictOf_eq_unknown_iff code).mp (not_not.mp (mt hverdict hlast)))
    · intro h
      refine ⟨_, rfl, fun hne => ?_, fun hearly => ?_⟩
      · exact h.resolve_right fun hcode => hne ((verdictOf_eq_unknown_iff code).mpr hcode)
      · have hcode := h.resolve_left (by omega)
        exact readers_snoc_unknown attempts ((verdictOf_eq_unknown_iff code).mpr hcode)

/-! ## Three hops -/

/-- The compressed encoding with a given value as a number. -/
def keyBytes (n : Nat) : List UInt8 :=
  (List.range 33).map fun i => UInt8.ofNat (n / 256 ^ (32 - i))

/-- Four points: the generator, its double and its triple, and the guess of `probeall`. -/
def samplePoints : List Nat :=
  [0x0279be667ef9dcbbac55a06295ce870b07029bfcdb2dce28d959f2815b16f81798,
    0x02c6047f9441ed7d6d3045406e95c07cd85c778e4b8cef3ca7abac09b95c709ee5,
    0x02f9308a019258c31049344f85f89d5229b531c845836f99b08601f113bce036f9,
    0x03b2c32c46e0b4b720c4f45f02a0cc4c5475df7ce4d5b1ab563961b1681c6917d6]

/-- The decoder on these four. -/
def sampleKeys : Secp256k1 where
  decode bytes := if bytes ∈ samplePoints.map keyBytes then some bytes else none
  decode_decode {bytes key} h := by
    split at h
    · cases h
      exact if_pos ‹_›
    · cases h

theorem standard_sampleKeys : sampleKeys.Standard := by
  have hsame : ∀ {bytes key}, sampleKeys.decode bytes = some key →
      key = bytes ∧ bytes.length = 33 := by
    intro bytes key h
    simp only [sampleKeys] at h
    split at h
    · rename_i hmem
      cases h
      obtain ⟨n, -, rfl⟩ := List.mem_map.mp hmem
      exact ⟨rfl, by rw [keyBytes, List.length_map, List.length_range]⟩
    · cases h
  exact ⟨fun h => Or.inl (hsame h).2, fun h => (hsame h).1 ▸ (hsame h).2, fun h _ => (hsame h).1⟩

/-- One of the four. -/
def sampleKey (i : Fin 4) : PublicKey sampleKeys where
  bytes := keyBytes (samplePoints.get i)
  decode_bytes := if_pos (List.mem_map_of_mem (List.get_mem _ _))

/-- Our own key. -/
def ourKey : PublicKey sampleKeys := sampleKey 0

/-- The key of node 1. -/
def firstKey : PublicKey sampleKeys := sampleKey 1

/-- The key of node 2. -/
def secondKey : PublicKey sampleKeys := sampleKey 2

/-- The key of the guessed node. -/
def guessKey : PublicKey sampleKeys := sampleKey 3

theorem sampleKey_injective : Function.Injective sampleKey := by
  intro i j
  revert i j
  decide

theorem firstKey_ne_ourKey : firstKey ≠ ourKey := sampleKey_injective.ne (by decide)

theorem firstKey_ne_guessKey : firstKey ≠ guessKey := sampleKey_injective.ne (by decide)

/-- A path over node 2 and node 1 to the guess. -/
def threeHops : List (RouteHop sampleKeys) :=
  [⟨secondKey, 10⟩, ⟨firstKey, 11⟩, ⟨guessKey, 12⟩]

/-- The row of a failure of `threeHops` with code `fee_insufficient`. -/
def feeInsufficientRow : Attempt where
  targetPubkey := firstKey.toText
  guessPubkey := guessKey.toText
  channelId := decimal 12
  result := .feeInsufficient
  dateFound := 0

/-- The second hop, the probed node, reports `fee_insufficient`. -/
theorem verdict_from_second_hop : ∃ row, handlePaymentPathFailed 0
    ⟨[], threeHops, processOnionFailure [none, some [0x10, 0x0c], none]⟩ [] = some ([] ++ [row]) ∧
      (row.result ≠ .unknown → threeHops.length ≤ 1 + 2) ∧
      (1 + 2 < threeHops.length → getAttemptsFound ([] ++ [row]) = getAttemptsFound [] ∧
        getAttemptsStr ([] ++ [row]) = getAttemptsStr []) :=
  (verdict_from_probed_iff 0 [] (by decide) (.later (.here 0x10 0x0c [] [none])) []).mpr
    (Or.inl (by decide))

/-- The first hop reports `fee_insufficient` about its channel to the probed node.  The row says
that the probed node has channel 12, and both readers take it up. -/
theorem verdict_from_first_hop : ReportedBy [some [0x10, 0x0c], none, none] 0 0x100c ∧
    handlePaymentPathFailed 0
      ⟨[], threeHops, processOnionFailure [some [0x10, 0x0c], none, none]⟩ [] =
        some [feeInsufficientRow] ∧
    0 + 2 < threeHops.length ∧ getAttemptsFound [feeInsufficientRow] = [feeInsufficientRow] ∧
    getAttemptsStr [feeInsufficientRow] feeInsufficientRow.key = some .feeInsufficient := by
  refine ⟨.here 0x10 0x0c [] [none, none], rfl, by decide, rfl, ?_⟩
  have hstr := getAttemptsStr_snoc [] feeInsufficientRow
  rw [if_neg (by decide)] at hstr
  exact (congrFun hstr _).trans (Function.update_self ..)

end HiddenLightning
