import HiddenLightning.Resume
import HiddenLightning.Commands

/-! # The report of `dump_results`

`dump_results` (`cli.rs`) joins the attempt table with the transactions of the files, by the
short channel id: the table has it as text, the transactions go into a map by the id packed
from their parts, and the block and the output's index are read from the id once more.

The rows were written by the handler of `PaymentPathFailed`, so the text is that of a `u64`
(`handleAll_written`).  If the parts of the transactions fit and no two transactions have the
same, then no two have one id, and the map does not depend on the order of the files
(`lookup_txsByScid`).  `results_dumped` puts this together.
-/
namespace HiddenLightning
open Numerals OpenFiles

variable {E : Secp256k1} {A : Type}

/-! ## Rows -/

variable (E) in
/-- A row as the handler writes it. -/
def Attempt.Written (row : Attempt) : Prop :=
  ∃ (target guess : PublicKey E) (scid : UInt64), row.targetPubkey = target.toText ∧
    row.guessPubkey = guess.toText ∧ row.channelId = decimal scid.toNat

theorem written_of_handle {date : Nat} {ev : PaymentPathFailed E}
    {attempts attempts' : List Attempt}
    (h : handlePaymentPathFailed date ev attempts = some attempts')
    (hwritten : ∀ row ∈ attempts, row.Written E) : ∀ row ∈ attempts', row.Written E := by
  rcases handlePaymentPathFailed_eq h with ⟨rfl, -⟩ | ⟨front, node, last, code, -, -, rfl⟩
  · exact hwritten
  · intro row hrow
    rcases List.mem_append.mp hrow with hrow | hrow
    · exact hwritten row hrow
    · rw [List.mem_singleton.mp hrow]
      exact ⟨node.pubkey, last.pubkey, last.shortChannelId, rfl, rfl, rfl⟩

/-- **Every row of the table was written by the handler.** -/
theorem handleAll_written {events : List (Nat × PaymentPathFailed E)}
    {attempts attempts' : List Attempt} (h : handleAll events attempts = some attempts')
    (hwritten : ∀ row ∈ attempts, row.Written E) : ∀ row ∈ attempts', row.Written E := by
  induction events generalizing attempts with
  | nil =>
    cases h
    exact hwritten
  | cons event events ih =>
    unfold handleAll at h
    rw [List.foldlM_cons] at h
    obtain ⟨mid, hmid, hrest⟩ := Option.bind_eq_some_iff.mp h
    exact ih hrest (written_of_handle hmid hwritten)

/-! ## Transactions by their ids -/

/-- **The map has exactly the transactions**, if no two have one id. -/
theorem lookup_txsByScid {txs : List Transaction} (h : (txs.map Transaction.scid).Nodup)
    (scid : UInt64) (tx : Transaction) :
    (txsByScid txs).lookup scid = some tx ↔ tx ∈ txs ∧ tx.scid = scid := by
  induction txs using List.reverseRecOn with
  | nil =>
    refine iff_of_false ?_ fun hmem => List.not_mem_nil hmem.1
    intro hlookup
    cases hlookup
  | append_singleton txs last ih =>
    rw [List.map_append, List.nodup_append] at h
    obtain ⟨hnodup, -, hfresh⟩ := h
    rw [txsByScid, List.foldl_append, ← txsByScid]
    show ((txsByScid txs).insert last.scid last).lookup scid = some tx ↔ _
    by_cases heq : scid = last.scid
    · subst heq
      rw [AList.lookup_insert, Option.some.injEq, List.mem_append, List.mem_singleton]
      constructor
      · rintro rfl
        exact ⟨Or.inr rfl, rfl⟩
      · rintro ⟨hmem | rfl, hscid⟩
        · -- an earlier transaction with this id would not be another one
          exact absurd hscid
            (hfresh tx.scid (List.mem_map_of_mem hmem) last.scid (List.mem_singleton_self _))
        · rfl
    · rw [AList.lookup_insert_ne heq, ih hnodup, List.mem_append, List.mem_singleton]
      constructor
      · rintro ⟨hmem, hscid⟩
        exact ⟨Or.inl hmem, hscid⟩
      · rintro ⟨hmem | rfl, hscid⟩
        · exact ⟨hmem, hscid⟩
        · exact absurd hscid.symm heq

/-- Outputs that are different and whose parts fit have different ids. -/
theorem nodup_scids {txs : List Transaction}
    (hrange : ∀ tx ∈ txs, (ScidParts.ofTransaction tx).InRange)
    (hdistinct : (txs.map ScidParts.ofTransaction).Nodup) :
    (txs.map Transaction.scid).Nodup := by
  rw [List.Nodup, List.pairwise_map] at hdistinct ⊢
  refine hdistinct.imp_of_mem ?_
  intro tx tx' htx htx' hne heq
  exact hne ((hrange tx htx).eq_of_scid_eq (hrange tx' htx') heq)

/-- A result depends on the transactions only through their ids. -/
theorem attemptResult_congr {txs txs' : AList fun _ : UInt64 => Transaction}
    (h : ∀ scid, txs.lookup scid = txs'.lookup scid) :
    attemptResult txs = attemptResult txs' := by
  funext attempt
  simp only [attemptResult, h]

/-- The order of the transactions makes no difference. -/
theorem attemptResult_perm {txs txs' : List Transaction} (hperm : txs.Perm txs')
    (h : (txs.map Transaction.scid).Nodup) :
    attemptResult (txsByScid txs) = attemptResult (txsByScid txs') := by
  refine attemptResult_congr fun scid => Option.ext fun tx => ?_
  have h' : (txs'.map Transaction.scid).Nodup := (hperm.map _).nodup_iff.mp h
  rw [lookup_txsByScid h, lookup_txsByScid h', hperm.mem_iff]

/-! ## Entries -/

/-- **What an entry is to say of its row**, given the transactions. -/
structure Reports (txs : List Transaction) (row : Attempt) (entry : AttemptResult) : Prop where
  targetPubkey : entry.targetPubkey = row.targetPubkey
  channelId : entry.channelId = row.channelId
  dateFound : entry.dateFound = row.dateFound
  otherPubkey : entry.otherPubkey = row.guessPubkey ↔
    row.result = .incorrectOrUnknownPaymentDetails
  otherPubkey_nil : row.result ≠ .incorrectOrUnknownPaymentDetails → entry.otherPubkey = []
  output : ∃ scid : UInt64, row.channelId = decimal scid.toNat ∧
    entry.blockOpen.toNat = scid.toNat / 2 ^ 40 ∧
    (∀ tx ∈ txs, tx.scid = scid → entry.blockOpen.toUInt64 = tx.blockHeight ∧
      entry.transactionIdOutput = tx.id ++ ':' :: decimal tx.transactionIndex.toNat ∧
      entry.amount = tx.amount) ∧
    ((∀ tx ∈ txs, tx.scid ≠ scid) → entry.transactionIdOutput = [] ∧ entry.amount = 0)

/-- The result for a row whose channel id is a number. -/
theorem attemptResult_of_scid (txs : AList fun _ : UInt64 => Transaction) {row : Attempt}
    {scid : UInt64} (h : row.channelId = decimal scid.toNat) :
    attemptResult txs row = some
      { targetPubkey := row.targetPubkey
        otherPubkey :=
          if row.result = .incorrectOrUnknownPaymentDetails then row.guessPubkey else []
        channelId := row.channelId
        transactionIdOutput := match txs.lookup scid with
          | some utxo => utxo.id ++ ':' :: decimal (voutFromScid scid).toNat
          | none => []
        amount := match txs.lookup scid with
          | some utxo => utxo.amount
          | none => 0
        blockOpen := blockFromScid scid
        dateFound := row.dateFound } := by
  obtain ⟨n, hparse, rfl⟩ : ∃ n, parseUnsigned maxU64 row.channelId = some n ∧
      UInt64.ofNat n = scid := by
    refine ⟨scid.toNat, ?_, UInt64.ofNat_toNat⟩
    rw [h]
    exact parseUnsigned_decimal (Nat.le_sub_one_of_lt scid.toNat_lt)
  rw [attemptResult, hparse]
  rfl

/-- A row of the handler gets its entry. -/
theorem Attempt.Written.reports (hE : E.Standard) {row : Attempt} (hrow : row.Written E)
    {txs : List Transaction} (hrange : ∀ tx ∈ txs, (ScidParts.ofTransaction tx).InRange)
    (hnodup : (txs.map Transaction.scid).Nodup) :
    ∃ entry, attemptResult (txsByScid txs) row = some entry ∧ Reports txs row entry := by
  obtain ⟨target, guess, scid, htarget, hguess, hchannel⟩ := hrow
  have hguessNil : row.guessPubkey ≠ [] := by
    intro hnil
    have hlength : guess.toText.length = 66 := by
      rw [PublicKey.toText, length_hexOfBytes, hE.length_key guess.decode_bytes]
    rw [← hguess, hnil, List.length_nil] at hlength
    omega
  refine ⟨_, attemptResult_of_scid _ hchannel, rfl, rfl, rfl, ?_, ?_, scid, hchannel,
    toNat_blockFromScid scid, ?_, ?_⟩
  · by_cases hresult : row.result = .incorrectOrUnknownPaymentDetails
    · exact iff_of_true (if_pos hresult) hresult
    · refine iff_of_false ?_ hresult
      rw [if_neg hresult]
      exact hguessNil.symm
  · intro hresult
    exact if_neg hresult
  · intro tx htx hscid
    -- the parts of the id are those of the transaction
    have hparts : ScidParts.ofScid scid = ScidParts.ofTransaction tx := by
      rw [← hscid]
      exact (hrange tx htx).ofScid_scid
    have hlookup : (txsByScid txs).lookup scid = some tx :=
      (lookup_txsByScid hnodup scid tx).mpr ⟨htx, hscid⟩
    have hvout : (voutFromScid scid).toNat = tx.transactionIndex.toNat := by
      rw [← UInt16.toNat_toUInt64]
      exact congrArg (fun p => p.vout.toNat) hparts
    simp only [hlookup, hvout]
    exact ⟨congrArg ScidParts.block hparts, trivial, trivial⟩
  · intro hnone
    have hlookup : (txsByScid txs).lookup scid = none := by
      refine Option.eq_none_iff_forall_ne_some.mpr fun tx htx => ?_
      obtain ⟨hmem, hscid⟩ := (lookup_txsByScid hnodup scid tx).mp htx
      exact hnone tx hmem hscid
    simp only [hlookup]
    trivial

theorem forall₂_of_mapM {α β : Type} {f : α → Option β} {R : α → β → Prop} {xs : List α}
    (h : ∀ x ∈ xs, ∃ y, f x = some y ∧ R x y) :
    ∃ ys, xs.mapM f = some ys ∧ List.Forall₂ R xs ys := by
  induction xs with
  | nil => exact ⟨[], rfl, .nil⟩
  | cons x xs ih =>
    obtain ⟨y, hy, hR⟩ := h x List.mem_cons_self
    obtain ⟨ys, hys, hall⟩ := ih fun x' hx' => h x' (List.mem_cons_of_mem _ hx')
    refine ⟨y :: ys, ?_, .cons hR hall⟩
    rw [List.mapM_cons, hy, hys]
    rfl

/-- **Every finding is reported with its own output.**  For every attempt table that the handler
has written, in any number of events, and every directory of files whose transactions have parts
that fit and are pairwise different: there is one list of results, with one entry for each row
that is neither `unknown` nor `unknown_next_peer`, in the order of the table, which says of its
row what it should; and this list is what `dump_results` writes, in whatever order the files are
read. -/
theorem results_dumped (hE : E.Standard) {events : List (Nat × PaymentPathFailed E)}
    {attempts : List Attempt} (htable : handleAll events [] = some attempts) (json : Json)
    (dir : TxDir)
    (hrange : ∀ tx ∈ dumpResultsTxs json dir dir.keys, (ScidParts.ofTransaction tx).InRange)
    (hdistinct : ((dumpResultsTxs json dir dir.keys).map ScidParts.ofTransaction).Nodup) :
    ∃ results : List AttemptResult,
      List.Forall₂ (Reports (dumpResultsTxs json dir dir.keys))
        (attempts.filter fun row => row.result ≠ .unknown ∧ row.result ≠ .unknownNextPeer)
        results ∧
      ∀ (env : CliEnv E A) (resultDir txpath : Text) (words order : List Text),
        env.attempts = attempts → env.Shows json dir txpath order →
        env.files.Writable (resultDir ++ "/results.json".toList) (env.toWriterPretty results) →
        ∃ printed, dumpResults env (resultDir :: txpath :: words) =
          ask printed (.dumpResults (resultDir ++ "/results.json".toList) results
            (env.toWriterPretty results).flatten) := by
  have hwritten : ∀ row ∈ attempts, row.Written E :=
    handleAll_written htable fun row hrow => absurd hrow List.not_mem_nil
  have hnodup := nodup_scids hrange hdistinct
  obtain ⟨results, hresults, hreports⟩ := forall₂_of_mapM fun row hrow =>
    (hwritten row (List.mem_of_mem_filter hrow)).reports hE hrange hnodup
  refine ⟨results, hreports, ?_⟩
  intro env resultDir txpath words order hattempts hshows hwritable
  obtain ⟨printed, hread⟩ := hshows.withTxs_eq [] (writeResults env resultDir)
  -- the files are read in another order, and give the same results
  have hperm : (dumpResultsTxs json dir dir.keys).Perm (dumpResultsTxs json dir order) :=
    hshows.perm.symm.flatMap_right _
  have hsame : (getAttemptsFound env.attempts).mapM
      (attemptResult (txsByScid (dumpResultsTxs json dir order))) = some results := by
    rw [hattempts, ← attemptResult_perm hperm hnodup]
    exact hresults
  refine ⟨printed, ?_⟩
  obtain ⟨opened, hopened⟩ := hwritable.1.1
  rw [dumpResults, hread, writeResults, hsame, Option.bind_some]
  dsimp only
  rw [hopened]
  dsimp only
  rw [if_pos ((writeResultsTo_ok_iff _ opened _).mpr hwritable.1.2), writeResultsTo_taken hwritable]

/-! ## Three findings -/

/-- A directory under the name `txs`, and room for the results. -/
def shownFiles (dir : TxDir) : FileSystem where
  readToString path :=
    if path.take 4 = "txs/".toList then
      ((dir.lookup (path.drop 4)).map Except.ok).getD (.error (.os 2))
    else .error (.os 2)
  readDir path :=
    if path = "txs".toList then .ok (dir.keys.map fun name => .ok (name, "txs/".toList ++ name))
    else .error (.os 2)
  create path := .ok (Files.empty.openFile path true)
  device _ _ := none
  readToString_intoInner {path e} h := by
    split at h
    · cases hfound : dir.lookup (path.drop 4) with
      | some text =>
        rw [hfound] at h
        cases h
      | none =>
        rw [hfound] at h
        cases h
        rfl
    · cases h
      rfl
  readDir_intoInner h := by
    split at h
    · cases h
    · cases h
      rfl

/-- Two parts, with an output each. -/
def sampleDir : TxDir :=
  ((∅ : TxDir).insert (partName 1) (sampleJson.toWriterPretty [sampleResult])).insert (partName 2)
    (sampleJson.toWriterPretty [otherResult])

/-- The channels of the outputs. -/
def sampleScid : UInt64 := sampleResult.toTransaction.scid

@[inherit_doc sampleScid]
def otherScid : UInt64 := otherResult.toTransaction.scid

/-- Four probes and a payment fail: one at the guess, one for want of the channel, one over the
other channel, one over a channel that is in no file; and the payment at the first hop. -/
def sampleEvents : List (Nat × PaymentPathFailed sampleKeys) :=
  [(0, ⟨[], [⟨firstKey, 10⟩, ⟨guessKey, sampleScid⟩], some 0x400f⟩),
    (1, ⟨[], [⟨secondKey, 11⟩, ⟨guessKey, sampleScid⟩], some 0x400a⟩),
    (2, ⟨[], [⟨secondKey, 11⟩, ⟨guessKey, otherScid⟩], some 0x100c⟩),
    (3, ⟨[], [⟨firstKey, 10⟩, ⟨guessKey, 12⟩], some 0x100d⟩),
    (4, ⟨[], [⟨firstKey, 10⟩], some 0x400f⟩)]

/-- The rows of the findings. -/
def sampleRows : List Attempt :=
  [⟨firstKey.toText, guessKey.toText, decimal sampleScid.toNat, .incorrectOrUnknownPaymentDetails,
      0⟩,
    ⟨secondKey.toText, guessKey.toText, decimal otherScid.toNat, .feeInsufficient, 2⟩,
    ⟨firstKey.toText, guessKey.toText, decimal 12, .incorrectCltvExpiry, 3⟩]

/-- The table. -/
def sampleTable : List Attempt :=
  sampleRows.insertIdx 1
    ⟨secondKey.toText, guessKey.toText, decimal sampleScid.toNat, .unknownNextPeer, 1⟩

/-- A node with that table and these files. -/
def dumpEnv : CliEnv sampleKeys Unit :=
  { sampleEnv with
    files := shownFiles sampleDir
    txsFromStr := fun text => match sampleJson.fromStr text with
      | some txs => .ok txs
      | none => .error []
    toWriterPretty := fun results => results.map fun r => r.channelId.map fun c => UInt8.ofNat c.toNat
    attempts := sampleTable }

theorem dumpResultsTxs_sampleDir : dumpResultsTxs sampleJson sampleDir sampleDir.keys =
    [otherResult.toTransaction, sampleResult.toTransaction] := by
  have hne : partName 1 ≠ partName 2 := fun h => absurd (partName_injective h) (by decide)
  have hkeys : sampleDir.keys = [partName 2, partName 1] := by decide +kernel
  have hsecond : sampleDir.lookup (partName 2) = some (sampleJson.toWriterPretty [otherResult]) :=
    AList.lookup_insert _
  have hfirst : sampleDir.lookup (partName 1) = some (sampleJson.toWriterPretty [sampleResult]) := by
    rw [sampleDir, AList.lookup_insert_ne hne]
    exact AList.lookup_insert _
  rw [hkeys, dumpResultsTxs, List.flatMap_cons, List.flatMap_singleton, readTxs, readTxs, hsecond,
    hfirst, Option.bind_some, Option.bind_some, sampleJson.fromStr_toWriterPretty,
    sampleJson.fromStr_toWriterPretty]
  rfl

theorem shows_sampleDir : dumpEnv.Shows sampleJson sampleDir "txs".toList sampleDir.keys where
  perm := List.Perm.refl _
  entries := rfl
  read {name text} h := by
    show ((sampleDir.lookup name).map Except.ok).getD (.error (IoError.os 2)) = .ok text
    rw [h]
    rfl
  parse text := by
    simp only [dumpEnv]
    cases sampleJson.fromStr text with
    | none => rfl
    | some txs => rfl

/-- Each finding is written with the output of its channel, and the last with none. -/
theorem results_dumped_sample : ∃ printed entries written,
    dumpResults dumpEnv ["out".toList, "txs".toList] =
      ask printed (.dumpResults "out/results.json".toList entries written) ∧
    List.Forall₂ (Reports [otherResult.toTransaction, sampleResult.toTransaction]) sampleRows
      entries := by
  have htable : handleAll sampleEvents [] = some sampleTable := rfl
  have hrows : sampleTable.filter (fun row => row.result ≠ .unknown ∧
      row.result ≠ .unknownNextPeer) = sampleRows := rfl
  obtain ⟨results, hreports, hdumped⟩ := results_dumped standard_sampleKeys htable sampleJson
    sampleDir (by rw [dumpResultsTxs_sampleDir]; decide) (by rw [dumpResultsTxs_sampleDir]; decide)
  rw [dumpResultsTxs_sampleDir, hrows] at hreports
  have hwritable : dumpEnv.files.Writable "out/results.json".toList
      (dumpEnv.toWriterPretty results) := by
    refine ⟨⟨⟨_, rfl⟩, Device.takesAll_of_none (fun _ => rfl) _ _⟩, ?_⟩
    rintro ⟨m, hm, -⟩
    cases hm
  obtain ⟨printed, hprinted⟩ := hdumped dumpEnv "out".toList "txs".toList [] _ rfl shows_sampleDir
    hwritable
  exact ⟨printed, results, _, hprinted, hreports⟩

end HiddenLightning
