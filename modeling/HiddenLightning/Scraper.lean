import HiddenLightning.Directory
import HiddenLightning.Campaign

/-! # The scraper and its readers

The scraper joins a dump of unspent outputs with a list of transactions and writes what it finds
to `part-1.json`, `part-2.json` and so on, ten thousand to a file and the rest to the last.
`probeall` and `dump_results` read every file of the directory, in whatever order `read_dir`
lists them.  Nothing but these names connects them, and the scraper removes no file: parts of an
earlier run with higher numbers than its own stay and are read as well.

`scraped_iff` says for any directory and any two runs when what is read is the join of the second
run's input alone.  The first run may also stop halfway, at a record it cannot read or a counter
that overflows; then it leaves the parts it has finished.
-/
namespace HiddenLightning
open Numerals FileStore

/-! ## What is scraped -/

/-- A line of the dump of unspent outputs. -/
structure UtxoDump where
  txid : Text
  vout : UInt64
  height : UInt64
  amount : UInt64
deriving DecidableEq

/-- A line of the list of transactions. -/
structure IterateDump where
  txid : Text
  txHeight : UInt64
deriving DecidableEq

/-- What the scraper writes. -/
structure ScrapeResult where
  blockHeight : UInt64
  id : Text
  blockIndex : UInt64
  transactionIndex : UInt64
  amount : UInt64
deriving DecidableEq

/-- What is read of it: the fields have the same names. -/
def ScrapeResult.toTransaction (r : ScrapeResult) : Transaction :=
  ⟨r.blockHeight, r.id, r.blockIndex, r.transactionIndex, r.amount⟩

/-- An output of the transaction of a line. -/
def scrapeResult (iterate : IterateDump) (utxo : UtxoDump) : ScrapeResult where
  blockHeight := utxo.height
  id := utxo.txid
  blockIndex := iterate.txHeight
  transactionIndex := utxo.vout
  amount := utxo.amount

/-- `serde_json`, as the scraper writes with it and its readers read. -/
structure Json where
  toWriterPretty : List ScrapeResult → Text
  fromStr : Text → Option (List Transaction)
  fromStr_toWriterPretty : ∀ results,
    fromStr (toWriterPretty results) = some (results.map ScrapeResult.toTransaction)

/-- The directory of transactions. -/
abbrev TxDir := Dir Text Char

/-- The name of a part. -/
def partName (part : Nat) : Text := "part-".toList ++ decimal part ++ ".json".toList

theorem partName_injective : Function.Injective partName := by
  intro a b h
  exact decimal_injective (List.append_cancel_left (List.append_cancel_right h))

/-! ## The scraper -/

/-- The two files; a record that cannot be read is `none`. -/
structure ScrapeInput where
  utxos : List (Option UtxoDump)
  iterate : List (Option IterateDump)

/-- The outputs by transaction. -/
abbrev UtxoMap := AList (fun _ : Text => List UtxoDump)

/-- An output is added to those of its transaction. -/
def addUtxo (utxoDump : UtxoMap) (utxo : UtxoDump) : UtxoMap :=
  match utxoDump.lookup utxo.txid with
  | some utxos => utxoDump.insert utxo.txid (utxos ++ [utxo])
  | none => utxoDump.insert utxo.txid [utxo]

/-- The state of the loop over the transactions. -/
structure Scraping where
  dir : TxDir
  scrapeResults : List ScrapeResult
  i : Nat
  found : Nat
  part : Nat

/-- The counters of the loop are of type `i32`, and their overflow panics. -/
def maxCounter : Nat := 2147483647

/-- One result is found.  An error leaves the directory as it is. -/
def Scraping.push (json : Json) (s : Scraping) (result : ScrapeResult) :
    Except TxDir Scraping :=
  if s.found = maxCounter then .error s.dir
  else if (s.found + 1) % 10000 = 0 then
    -- `File::create` replaces a part of that number, whoever wrote it
    .ok { s with
      dir := s.dir.insert (partName s.part) (json.toWriterPretty (s.scrapeResults ++ [result]))
      scrapeResults := []
      found := s.found + 1
      part := s.part + 1 }
  else .ok { s with scrapeResults := s.scrapeResults ++ [result], found := s.found + 1 }

/-- One line of the list of transactions. -/
def Scraping.analyze (json : Json) (utxoDump : UtxoMap) (s : Scraping) :
    Option IterateDump → Except TxDir Scraping
  | none => .error s.dir
  | some iterate =>
    -- `i` counts every line, found or not
    if s.i = maxCounter then .error s.dir
    else
      match utxoDump.lookup iterate.txid with
      | some utxos =>
        (utxos.map (scrapeResult iterate)).foldlM (Scraping.push json) { s with i := s.i + 1 }
      | none => .ok { s with i := s.i + 1 }

/-- `main` of the scraper, in the directory it writes to.  An error is the directory as it was
left. -/
def scrape (json : Json) (input : ScrapeInput) (dir : TxDir) : Except TxDir TxDir :=
  match input.utxos.mapM id with
  -- the outputs are read before anything is written
  | none => .error dir
  | some utxos => do
    let s ← input.iterate.foldlM (Scraping.analyze json (utxos.foldl addUtxo ∅)) ⟨dir, [], 0, 0, 1⟩
    .ok (s.dir.insert (partName s.part) (json.toWriterPretty s.scrapeResults))

/-- The directory after a run, be it complete or not. -/
def leftBy : Except TxDir TxDir → TxDir
  | .ok dir => dir
  | .error dir => dir

/-! ## The readers -/

/-- The transactions of a file; one that cannot be parsed is skipped. -/
def readTxs (json : Json) (dir : TxDir) (name : Text) : List Transaction :=
  ((dir.lookup name).bind json.fromStr).getD []

/-- The transactions `probeall` reads, from the files in the order of `read_dir`. -/
def probeallTxs (json : Json) (dir : TxDir) (order : List Text) : List Transaction :=
  order.foldl (fun txs name => txs ++ readTxs json dir name) []

/-- The transactions `dump_results` reads, in the order it puts them into its map. -/
def dumpResultsTxs (json : Json) (dir : TxDir) (order : List Text) : List Transaction :=
  order.flatMap (readTxs json dir)

/-- The transactions by channel id; a later one replaces an earlier one. -/
def txsByScid (txs : List Transaction) : AList (fun _ : UInt64 => Transaction) :=
  txs.foldl (fun txs tx => txs.insert tx.scid tx) ∅

/-- The map of `dump_results`, filled file by file. -/
def dumpResultsMap (json : Json) (dir : TxDir) (order : List Text) :
    AList (fun _ : UInt64 => Transaction) :=
  order.foldl (fun txs name =>
    (readTxs json dir name).foldl (fun txs tx => txs.insert tx.scid tx) txs) ∅

/-- The two read the same. -/
theorem probeallTxs_eq (json : Json) (dir : TxDir) (order : List Text) :
    probeallTxs json dir order = dumpResultsTxs json dir order := by
  have h : ∀ txs, order.foldl (fun txs name => txs ++ readTxs json dir name) txs =
      txs ++ order.flatMap (readTxs json dir) := by
    induction order with
    | nil => exact fun txs => (List.append_nil txs).symm
    | cons name order ih =>
      intro txs
      rw [List.foldl_cons, ih, List.flatMap_cons, List.append_assoc]
  exact h []

/-- The map of `dump_results` is what it reads, put in one after the other. -/
theorem dumpResultsMap_eq (json : Json) (dir : TxDir) (order : List Text) :
    dumpResultsMap json dir order = txsByScid (dumpResultsTxs json dir order) := by
  rw [txsByScid, dumpResultsTxs, List.foldl_flatMap]
  rfl

/-! ## What is meant to be read -/

/-- **The join of the two files**: each line with every output of its transaction. -/
def joinDumps (utxos : List UtxoDump) (iterate : List IterateDump) : List ScrapeResult :=
  iterate.flatMap fun line => (utxos.filter fun utxo => utxo.txid = line.txid).map (scrapeResult line)

/-- The join of the records. -/
def ScrapeInput.join (input : ScrapeInput) : List Transaction :=
  (joinDumps input.utxos.reduceOption input.iterate.reduceOption).map ScrapeResult.toTransaction

/-- The lines before the first that cannot be read, as far as they can be counted. -/
def ScrapeInput.lines (input : ScrapeInput) : List IterateDump :=
  ((input.iterate.take maxCounter).takeWhile Option.isSome).reduceOption

/-- The results a run finds, as far as they can be counted. -/
def ScrapeInput.results (input : ScrapeInput) : List ScrapeResult :=
  match input.utxos.mapM id with
  | none => []
  | some utxos => (joinDumps utxos input.lines).take maxCounter

/-- The run ends without an error. -/
def ScrapeInput.Completes (input : ScrapeInput) : Prop :=
  none ∉ input.utxos ∧ none ∉ input.iterate ∧ input.iterate.length ≤ maxCounter ∧
    (joinDumps input.utxos.reduceOption input.iterate.reduceOption).length ≤ maxCounter

instance (input : ScrapeInput) : Decidable input.Completes :=
  inferInstanceAs (Decidable (_ ∧ _ ∧ _ ∧ _))

/-- How many parts a run writes. -/
def ScrapeInput.parts (input : ScrapeInput) : Nat :=
  if input.Completes then input.results.length / 10000 + 1 else input.results.length / 10000

/-- How many results a run writes: one that stops halfway loses those of its last part. -/
def ScrapeInput.written (input : ScrapeInput) : Nat :=
  if input.Completes then input.results.length else input.results.length / 10000 * 10000

/-! ## The outputs of a transaction -/

theorem lookup_addUtxo (utxoDump : UtxoMap) (utxo : UtxoDump) (txid : Text) :
    ((addUtxo utxoDump utxo).lookup txid).getD [] =
      (utxoDump.lookup txid).getD [] ++ [utxo].filter fun utxo => utxo.txid = txid := by
  rw [addUtxo]
  by_cases heq : utxo.txid = txid
  · subst heq
    cases utxoDump.lookup utxo.txid with
    | none => simp
    | some utxos => simp
  · cases utxoDump.lookup utxo.txid with
    | none => simp [heq, AList.lookup_insert_ne (Ne.symm heq)]
    | some utxos => simp [heq, AList.lookup_insert_ne (Ne.symm heq)]

theorem lookup_foldl_addUtxo (utxos : List UtxoDump) (utxoDump : UtxoMap) (txid : Text) :
    ((utxos.foldl addUtxo utxoDump).lookup txid).getD [] =
      (utxoDump.lookup txid).getD [] ++ utxos.filter fun utxo => utxo.txid = txid := by
  induction utxos generalizing utxoDump with
  | nil => exact (List.append_nil _).symm
  | cons utxo utxos ih =>
    rw [List.foldl_cons, ih, lookup_addUtxo, List.append_assoc, ← List.filter_append]
    rfl

/-- The results of a line are found among the outputs of its transaction. -/
theorem analyze_some (json : Json) (utxos : List UtxoDump) {s : Scraping} (hi : s.i < maxCounter)
    (line : IterateDump) :
    s.analyze json (utxos.foldl addUtxo ∅) (some line) =
      (joinDumps utxos [line]).foldlM (Scraping.push json) { s with i := s.i + 1 } := by
  have hlookup := lookup_foldl_addUtxo utxos ∅ line.txid
  have hjoin : joinDumps utxos [line] =
      (utxos.filter fun utxo => utxo.txid = line.txid).map (scrapeResult line) :=
    List.flatMap_singleton ..
  have hempty : ((∅ : UtxoMap).lookup line.txid).getD [] = [] := rfl
  rw [hempty, List.nil_append] at hlookup
  rw [Scraping.analyze, if_neg (by omega), hjoin, ← hlookup]
  cases (utxos.foldl addUtxo ∅).lookup line.txid with
  | none => rfl
  | some found => rfl

/-! ## What a run leaves -/

/-- Parts written one after the other, from a number on. -/
def writeParts (json : Json) (dir : TxDir) (part : Nat) : List (List ScrapeResult) → TxDir
  | [] => dir
  | results :: parts =>
    writeParts json (dir.insert (partName part) (json.toWriterPretty results)) (part + 1) parts

theorem writeParts_append (json : Json) (dir : TxDir) (part : Nat)
    (parts : List (List ScrapeResult)) (results : List ScrapeResult) :
    writeParts json dir part (parts ++ [results]) =
      (writeParts json dir part parts).insert (partName (part + parts.length))
        (json.toWriterPretty results) := by
  induction parts generalizing dir part with
  | nil => rfl
  | cons first parts ih =>
    rw [List.cons_append, writeParts, ih, writeParts, List.length_cons]
    congr 2
    omega

/-- **The invariant of the loop**: of the results so far, the full parts are written and the rest
is kept. -/
structure Scraping.Wrote (json : Json) (dir : TxDir) (results : List ScrapeResult)
    (s : Scraping) (parts : List (List ScrapeResult)) : Prop where
  dir_eq : s.dir = writeParts json dir 1 parts
  part_eq : s.part = 1 + parts.length
  full : ∀ part ∈ parts, part.length = 10000
  results_eq : results = parts.flatten ++ s.scrapeResults
  found_eq : s.found = results.length
  rest_lt : s.scrapeResults.length < 10000

theorem length_flatten_of_full {parts : List (List ScrapeResult)}
    (h : ∀ part ∈ parts, part.length = 10000) : parts.flatten.length = 10000 * parts.length := by
  rw [List.length_flatten, List.map_congr_left h, List.map_const', List.sum_replicate, Nat.mul_comm]
  rfl

section
variable {json : Json} {dir : TxDir} {s : Scraping} {results : List ScrapeResult}
  {parts : List (List ScrapeResult)}

theorem Scraping.Wrote.push (h : s.Wrote json dir results parts) (hfound : s.found < maxCounter)
    (result : ScrapeResult) : ∃ s' parts', s.push json result = .ok s' ∧ s'.i = s.i ∧
      s'.Wrote json dir (results ++ [result]) parts' := by
  have hlength : results.length = 10000 * parts.length + s.scrapeResults.length := by
    rw [h.results_eq, List.length_append, length_flatten_of_full h.full]
  have hfoundEq := h.found_eq
  have hrest := h.rest_lt
  rw [Scraping.push, if_neg (by omega)]
  by_cases hmod : (s.found + 1) % 10000 = 0
  · -- the part is full: `found` is a multiple of the size, and so is what was written
    rw [if_pos hmod]
    refine ⟨_, parts ++ [s.scrapeResults ++ [result]], rfl, rfl, ?_, ?_, ?_, ?_, ?_, ?_⟩
    · rw [writeParts_append, ← h.part_eq, ← h.dir_eq]
    · show s.part + 1 = _
      rw [h.part_eq, List.length_append]
      rfl
    · intro part hpart
      rcases List.mem_append.mp hpart with hpart | hpart
      · exact h.full part hpart
      · rw [List.mem_singleton.mp hpart, List.length_append, List.length_singleton]
        omega
    · rw [h.results_eq]
      simp
    · show s.found + 1 = _
      rw [hfoundEq, List.length_append, List.length_singleton]
    · show 0 < 10000
      omega
  · rw [if_neg hmod]
    refine ⟨_, parts, rfl, rfl, h.dir_eq, h.part_eq, h.full, ?_, ?_, ?_⟩
    · rw [h.results_eq, List.append_assoc]
    · show s.found + 1 = _
      rw [hfoundEq, List.length_append, List.length_singleton]
    · show (s.scrapeResults ++ [result]).length < 10000
      rw [List.length_append, List.length_singleton]
      omega

/-- How a loop has ended. -/
inductive Ended (json : Json) (dir : TxDir) (results : List ScrapeResult) :
    Except TxDir Scraping → Nat → Prop where
  | ok {s : Scraping} {parts : List (List ScrapeResult)} (h : s.Wrote json dir results parts) :
      Ended json dir results (.ok s) s.i
  | error {s : Scraping} {parts : List (List ScrapeResult)} (h : s.Wrote json dir results parts)
      (i : Nat) : Ended json dir results (.error s.dir) i

theorem Ended.exists_wrote {json : Json} {dir : TxDir} {results : List ScrapeResult}
    {s : Scraping} {i : Nat} (h : Ended json dir results (.ok s) i) :
    ∃ parts, s.i = i ∧ s.Wrote json dir results parts := by
  cases h with
  | ok hwrote => exact ⟨_, rfl, hwrote⟩

/-- Any number of results are found, as many as can be counted. -/
theorem Scraping.Wrote.pushes (h : s.Wrote json dir results parts)
    (hle : results.length ≤ maxCounter) (more : List ScrapeResult) :
    Ended json dir ((results ++ more).take maxCounter) (more.foldlM (Scraping.push json) s) s.i ∧
      ((more.foldlM (Scraping.push json) s).isOk ↔ (results ++ more).length ≤ maxCounter) := by
  induction more generalizing s results parts with
  | nil =>
    rw [List.append_nil, List.take_of_length_le hle]
    exact ⟨.ok h, iff_of_true rfl hle⟩
  | cons result more ih =>
    have hfound := h.found_eq
    rw [List.foldlM_cons]
    by_cases hmax : s.found = maxCounter
    · have herror : s.push json result = .error s.dir := by
        rw [Scraping.push, if_pos hmax]
      have htake : (results ++ result :: more).take maxCounter = results := by
        rw [List.take_append_of_le_length (by omega), List.take_of_length_le hle]
      rw [herror, htake]
      refine ⟨.error h s.i, iff_of_false Bool.false_ne_true ?_⟩
      rw [List.length_append, List.length_cons]
      omega
    · obtain ⟨s', parts', hpush, hi, hwrote⟩ := h.push (by omega) result
      have hle' : (results ++ [result]).length ≤ maxCounter := by
        rw [List.length_append, List.length_singleton]
        omega
      have hrest := ih hwrote hle'
      rw [List.append_assoc, List.singleton_append, hi] at hrest
      rw [hpush]
      exact hrest

theorem joinDumps_cons (utxos : List UtxoDump) (line : IterateDump) (lines : List IterateDump) :
    joinDumps utxos (line :: lines) = joinDumps utxos [line] ++ joinDumps utxos lines := by
  rw [joinDumps, List.flatMap_cons, joinDumps, List.flatMap_singleton]
  rfl

/-- The loop ends at a line that cannot be read or counted, with what was found before. -/
theorem Scraping.Wrote.stop (h : s.Wrote json dir results parts)
    (hle : results.length ≤ maxCounter) (utxos : List UtxoDump) {line : Option IterateDump}
    (hline : line = none ∨ s.i = maxCounter) (lines : List (Option IterateDump)) :
    (∃ i, Ended json dir
      ((results ++ joinDumps utxos
        (((line :: lines).take (maxCounter - s.i)).takeWhile
          Option.isSome).reduceOption).take maxCounter) (.error s.dir) i) ∧
    ¬ (none ∉ line :: lines ∧ (line :: lines).length ≤ maxCounter - s.i) := by
  have hnone : ((line :: lines).take (maxCounter - s.i)).takeWhile Option.isSome = [] := by
    rcases hline with rfl | hmax
    · cases maxCounter - s.i with
      | zero => rfl
      | succ n => rfl
    · rw [hmax, Nat.sub_self]
      rfl
  rw [hnone, List.reduceOption_nil, show joinDumps utxos [] = [] from rfl, List.append_nil,
    List.take_of_length_le hle]
  refine ⟨⟨0, .error h 0⟩, ?_⟩
  rintro ⟨hmem, hlength⟩
  rcases hline with rfl | hmax
  · exact hmem List.mem_cons_self
  · rw [List.length_cons] at hlength
    omega

/-- Any number of lines are analysed, up to the first that cannot be read. -/
theorem Scraping.Wrote.analyzeAll (h : s.Wrote json dir results parts)
    (hle : results.length ≤ maxCounter) (hi : s.i ≤ maxCounter) (utxos : List UtxoDump)
    (lines : List (Option IterateDump)) :
    (∃ i, Ended json dir
      ((results ++ joinDumps utxos
        ((lines.take (maxCounter - s.i)).takeWhile Option.isSome).reduceOption).take maxCounter)
      (lines.foldlM (Scraping.analyze json (utxos.foldl addUtxo ∅)) s) i) ∧
    ((lines.foldlM (Scraping.analyze json (utxos.foldl addUtxo ∅)) s).isOk ↔
      none ∉ lines ∧ lines.length ≤ maxCounter - s.i ∧
        (results ++ joinDumps utxos lines.reduceOption).length ≤ maxCounter) := by
  induction lines generalizing s results parts with
  | nil =>
    have hnil : results ++ joinDumps utxos [] = results := List.append_nil _
    rw [List.take_nil, List.takeWhile_nil, List.reduceOption_nil, hnil,
      List.take_of_length_le hle]
    exact ⟨⟨s.i, .ok h⟩, iff_of_true rfl ⟨List.not_mem_nil, Nat.zero_le _, hle⟩⟩
  | cons line lines ih =>
    rw [List.foldlM_cons]
    cases line with
    | none =>
      obtain ⟨hended, hnot⟩ := h.stop hle utxos (Or.inl rfl) lines
      exact ⟨hended, iff_of_false Bool.false_ne_true fun hall => hnot ⟨hall.1, hall.2.1⟩⟩
    | some line =>
      by_cases hmax : s.i = maxCounter
      · obtain ⟨hended, hnot⟩ := h.stop hle utxos (Or.inr hmax) lines
        have herror : s.analyze json (utxos.foldl addUtxo ∅) (some line) = .error s.dir := by
          rw [Scraping.analyze, if_pos hmax]
        rw [herror]
        exact ⟨hended, iff_of_false Bool.false_ne_true fun hall => hnot ⟨hall.1, hall.2.1⟩⟩
      · obtain ⟨n, hn⟩ : ∃ n, maxCounter - s.i = n + 1 := ⟨maxCounter - s.i - 1, by omega⟩
        have hwrote : Scraping.Wrote json dir results { s with i := s.i + 1 } parts :=
          ⟨h.dir_eq, h.part_eq, h.full, h.results_eq, h.found_eq, h.rest_lt⟩
        obtain ⟨hended, hok⟩ := hwrote.pushes hle (joinDumps utxos [line])
        rw [analyze_some json utxos (by omega) line, hn, List.take_succ_cons,
          List.takeWhile_cons_of_pos rfl, List.reduceOption_cons_of_some,
          List.reduceOption_cons_of_some,
          joinDumps_cons utxos line ((lines.take n).takeWhile Option.isSome).reduceOption,
          joinDumps_cons utxos line lines.reduceOption, ← List.append_assoc, ← List.append_assoc]
        -- either the results of this line can all be counted and the loop goes on, or not
        revert hended hok
        cases (joinDumps utxos [line]).foldlM (Scraping.push json) { s with i := s.i + 1 } with
        | error left =>
          intro hended hok
          have hmany : ¬ (results ++ joinDumps utxos [line]).length ≤ maxCounter :=
            fun hfew => Bool.false_ne_true (hok.mpr hfew)
          rw [List.take_append_of_le_length (by omega)]
          refine ⟨⟨_, hended⟩, iff_of_false Bool.false_ne_true ?_⟩
          rintro ⟨-, -, hfew⟩
          rw [List.length_append] at hfew
          omega
        | ok s' =>
          intro hended hok
          have hfew := hok.mp rfl
          rw [List.take_of_length_le hfew] at hended
          obtain ⟨parts', (hi' : s'.i = s.i + 1), hwrote'⟩ := hended.exists_wrote
          have hrest := ih hwrote' hfew (by omega)
          have hn' : maxCounter - s'.i = n := by omega
          rw [hn'] at hrest
          refine ⟨hrest.1, hrest.2.trans ?_⟩
          rw [List.mem_cons, List.length_cons, Nat.add_le_add_iff_right]
          simp

end

theorem mapM_id_eq {α : Type} [DecidableEq α] (records : List (Option α)) :
    records.mapM id = if none ∈ records then none else some records.reduceOption := by
  induction records with
  | nil => rfl
  | cons record records ih =>
    rw [List.mapM_cons, ih]
    cases record with
    | none => simp
    | some record =>
      by_cases hnone : none ∈ records
      · simp [hnone]
      · simp [hnone]

/-- A run that completes finds the whole join. -/
theorem ScrapeInput.Completes.results_eq {input : ScrapeInput} (h : input.Completes) :
    input.results = joinDumps input.utxos.reduceOption input.iterate.reduceOption := by
  obtain ⟨hutxos, hiterate, hlines, hfound⟩ := h
  have hgood : input.iterate.takeWhile Option.isSome = input.iterate := by
    rw [List.takeWhile_eq_self_iff]
    intro record hrecord
    cases record with
    | none => exact absurd hrecord hiterate
    | some record => rfl
  have hall : input.lines = input.iterate.reduceOption := by
    rw [ScrapeInput.lines, List.take_of_length_le hlines, hgood]
  rw [ScrapeInput.results, mapM_id_eq, if_neg hutxos, hall]
  exact List.take_of_length_le hfound

/-- **What a run leaves**: the parts it has filled, and if it completes the rest as well. -/
theorem scrape_eq (json : Json) (input : ScrapeInput) (dir : TxDir) :
    ∃ (full : List (List ScrapeResult)) (rest : List ScrapeResult),
      (∀ part ∈ full, part.length = 10000) ∧ rest.length < 10000 ∧
      input.results = full.flatten ++ rest ∧
      scrape json input dir = if input.Completes
        then .ok (writeParts json dir 1 (full ++ [rest]))
        else .error (writeParts json dir 1 full) := by
  by_cases hutxos : none ∈ input.utxos
  · refine ⟨[], [], by simp, by simp, ?_, ?_⟩
    · rw [ScrapeInput.results, mapM_id_eq, if_pos hutxos]
      rfl
    · rw [scrape, mapM_id_eq, if_pos hutxos, if_neg fun h => h.1 hutxos]
      rfl
  · have hstart : Scraping.Wrote json dir [] ⟨dir, [], 0, 0, 1⟩ [] :=
      ⟨rfl, rfl, by simp, rfl, rfl, by simp⟩
    obtain ⟨⟨i, hended⟩, hok⟩ := hstart.analyzeAll (Nat.zero_le _) (Nat.zero_le _)
      input.utxos.reduceOption input.iterate
    have hcompletes : (input.iterate.foldlM
        (Scraping.analyze json (input.utxos.reduceOption.foldl addUtxo ∅))
        ⟨dir, [], 0, 0, 1⟩).isOk ↔ input.Completes :=
      hok.trans ⟨fun h => ⟨hutxos, h⟩, fun h => h.2⟩
    have hresults : input.results = ([] ++ joinDumps input.utxos.reduceOption
        ((input.iterate.take (maxCounter - 0)).takeWhile
          Option.isSome).reduceOption).take maxCounter := by
      rw [ScrapeInput.results, mapM_id_eq, if_neg hutxos]
      rfl
    rw [scrape, mapM_id_eq, if_neg hutxos]
    dsimp only
    revert hended hcompletes
    rw [← hresults]
    cases input.iterate.foldlM
        (Scraping.analyze json (input.utxos.reduceOption.foldl addUtxo ∅))
        ⟨dir, [], 0, 0, 1⟩ with
    | ok s =>
      intro hended hcompletes
      cases hended with
      | @ok _ parts hwrote =>
        refine ⟨parts, s.scrapeResults, hwrote.full, hwrote.rest_lt, hwrote.results_eq, ?_⟩
        rw [if_pos (hcompletes.mp rfl), writeParts_append, ← hwrote.part_eq, ← hwrote.dir_eq]
        rfl
    | error left =>
      intro hended hcompletes
      cases hended with
      | @error s parts hwrote =>
        refine ⟨parts, s.scrapeResults, hwrote.full, hwrote.rest_lt, hwrote.results_eq, ?_⟩
        rw [if_neg fun h => Bool.false_ne_true (hcompletes.mpr h), ← hwrote.dir_eq]
        rfl

/-! ## What is read -/

/-- The transactions in the files of a directory, without those of some names. -/
def readWithout (json : Json) (dir : TxDir) (names : Finset Text) : Multiset Transaction :=
  ∑ name ∈ dir.keys.toFinset \ names, (readTxs json dir name : Multiset Transaction)

/-- Every order of the files reads the same. -/
theorem coe_dumpResultsTxs (json : Json) (dir : TxDir) {order : List Text}
    (horder : order.Perm dir.keys) :
    (dumpResultsTxs json dir order : Multiset Transaction) = readWithout json dir ∅ := by
  have hperm : (dumpResultsTxs json dir order).Perm (dir.keys.flatMap (readTxs json dir)) :=
    horder.flatMap_right _
  rw [Multiset.coe_eq_coe.mpr hperm, readWithout, Finset.sdiff_empty,
    List.sum_toFinset _ dir.keys_nodup]
  induction dir.keys with
  | nil => rfl
  | cons name names ih =>
    rw [List.flatMap_cons, List.map_cons, List.sum_cons, ← ih, Multiset.coe_add]

/-- Nothing is read exactly if no file has a transaction. -/
theorem readWithout_eq_zero {json : Json} {dir : TxDir} {names : Finset Text} :
    readWithout json dir names = 0 ↔ ∀ name ∉ names, readTxs json dir name = [] := by
  rw [readWithout, Finset.sum_eq_zero_iff]
  constructor
  · intro h name hname
    by_cases hkey : name ∈ dir.keys
    · have hzero := h name (Finset.mem_sdiff.mpr ⟨List.mem_toFinset.mpr hkey, hname⟩)
      exact Multiset.coe_eq_zero _ |>.mp hzero
    · rw [readTxs, AList.lookup_eq_none.mpr hkey]
      rfl
  · intro h name hname
    rw [h name (Finset.mem_sdiff.mp hname).2]
    rfl

theorem keys_toFinset_insert (dir : TxDir) (name text : Text) :
    (dir.insert name text).keys.toFinset = insert name dir.keys.toFinset := by
  ext other
  rw [List.mem_toFinset, ← AList.mem_keys, AList.mem_insert, Finset.mem_insert, List.mem_toFinset,
    ← AList.mem_keys]

theorem readTxs_insert_of_ne (json : Json) (dir : TxDir) {name other : Text} (h : other ≠ name)
    (text : Text) : readTxs json (dir.insert name text) other = readTxs json dir other := by
  rw [readTxs, readTxs, AList.lookup_insert_ne h]

theorem readTxs_insert_self (json : Json) (dir : TxDir) (name text : Text) :
    readTxs json (dir.insert name text) name = (json.fromStr text).getD [] := by
  rw [readTxs, AList.lookup_insert, Option.bind_some]

/-- A file that is written hides the one that had its name. -/
theorem readWithout_insert (json : Json) (dir : TxDir) (names : Finset Text) (name text : Text) :
    readWithout json (dir.insert name text) names =
      (if name ∈ names then 0 else ((json.fromStr text).getD [] : Multiset Transaction)) +
        readWithout json dir (insert name names) := by
  have hothers : ∑ other ∈ dir.keys.toFinset \ insert name names,
      (readTxs json (dir.insert name text) other : Multiset Transaction) =
        readWithout json dir (insert name names) := by
    refine Finset.sum_congr rfl fun other hother => ?_
    have hne : other ≠ name := by
      rintro rfl
      exact (Finset.mem_sdiff.mp hother).2 (Finset.mem_insert_self _ _)
    rw [readTxs_insert_of_ne json dir hne]
  rw [readWithout, keys_toFinset_insert, ← hothers]
  by_cases hname : name ∈ names
  · rw [if_pos hname, zero_add, Finset.insert_sdiff_of_mem _ hname,
      Finset.insert_eq_self.mpr hname]
  · have hsplit : insert name dir.keys.toFinset \ names =
        insert name (dir.keys.toFinset \ insert name names) := by
      ext other
      by_cases heq : other = name
      · simp [heq, hname]
      · simp [heq]
    have hnot : name ∉ dir.keys.toFinset \ insert name names := by simp
    rw [if_neg hname, hsplit, Finset.sum_insert hnot, readTxs_insert_self]

/-- The names of the parts from one number up to another. -/
def partNames (a b : Nat) : Finset Text := (Finset.Ico a b).image partName

theorem mem_partNames {a b part : Nat} : partName part ∈ partNames a b ↔ a ≤ part ∧ part < b := by
  rw [partNames, Finset.mem_image]
  constructor
  · rintro ⟨other, hother, heq⟩
    rw [partName_injective heq] at hother
    exact Finset.mem_Ico.mp hother
  · intro h
    exact ⟨part, Finset.mem_Ico.mpr h, rfl⟩

theorem insert_partNames {a b : Nat} (h : a < b) :
    insert (partName a) (partNames (a + 1) b) = partNames a b := by
  rw [partNames, partNames, ← Finset.image_insert, Finset.insert_Ico_add_one_left_eq_Ico h]

/-- **What is read after parts were written**: the parts without those of the first numbers, and
what was there under other names. -/
theorem readWithout_writeParts (json : Json) (dir : TxDir) (first part : Nat)
    (parts : List (List ScrapeResult)) (names : Finset Text)
    (hnames : ∀ n, part ≤ n → (partName n ∈ names ↔ n < first)) :
    readWithout json (writeParts json dir part parts) names =
      (((parts.drop (first - part)).flatten.map ScrapeResult.toTransaction : List Transaction) :
        Multiset Transaction) +
        readWithout json dir (partNames part (part + parts.length) ∪ names) := by
  induction parts generalizing dir part with
  | nil =>
    rw [writeParts, List.drop_nil, List.length_nil, Nat.add_zero, partNames, Finset.Ico_self,
      Finset.image_empty, Finset.empty_union]
    exact (zero_add _).symm
  | cons results parts ih =>
    have hnotin : partName part ∈ partNames (part + 1) (part + 1 + parts.length) ∪ names ↔
        part < first := by
      rw [Finset.mem_union, mem_partNames, hnames part (Nat.le_refl _)]
      omega
    have hunion : insert (partName part) (partNames (part + 1) (part + 1 + parts.length) ∪ names) =
        partNames part (part + (results :: parts).length) ∪ names := by
      rw [← Finset.insert_union, insert_partNames (by omega), List.length_cons]
      congr 2
      omega
    rw [writeParts, ih _ (part + 1) fun n hn => hnames n (by omega),
      readWithout_insert, json.fromStr_toWriterPretty, Option.getD_some, hunion, ← add_assoc]
    congr 1
    -- the part counts unless its number is among those left out
    by_cases hfirst : part < first
    · rw [if_pos (hnotin.mpr hfirst), add_zero,
        show first - part = first - (part + 1) + 1 by omega, List.drop_succ_cons]
    · rw [if_neg fun h => hfirst (hnotin.mp h), show first - part = 0 by omega,
        show first - (part + 1) = 0 by omega, List.drop_zero, List.drop_zero, List.flatten_cons,
        List.map_append, ← Multiset.coe_add, add_comm]

/-! ## Two runs -/

/-- What is left of full parts and a last one, from a part on. -/
theorem length_drop_flatten {full : List (List ScrapeResult)}
    (hfull : ∀ part ∈ full, part.length = 10000) (k : Nat) :
    (full.drop k).flatten.length = 10000 * full.length - 10000 * k := by
  rw [length_flatten_of_full fun part hpart => hfull part (List.mem_of_mem_drop hpart),
    List.length_drop]
  omega

theorem length_drop_flatten_append {full : List (List ScrapeResult)} {rest : List ScrapeResult}
    (hfull : ∀ part ∈ full, part.length = 10000) (hrest : rest.length < 10000) (k : Nat) :
    ((full ++ [rest]).drop k).flatten.length = 10000 * full.length + rest.length - 10000 * k := by
  rw [List.drop_append, List.flatten_append, List.length_append, length_drop_flatten hfull]
  by_cases hk : k ≤ full.length
  · rw [Nat.sub_eq_zero_of_le hk, List.drop_zero, List.flatten_singleton]
    omega
  · have hnil : [rest].drop (k - full.length) = [] :=
      List.drop_eq_nil_of_le (by rw [List.length_singleton]; omega)
    rw [hnil, List.flatten_nil, List.length_nil]
    omega

/-- The parts a run leaves, in numbers. -/
theorem leftBy_eq (json : Json) (input : ScrapeInput) (dir : TxDir) :
    ∃ parts : List (List ScrapeResult),
      leftBy (scrape json input dir) = writeParts json dir 1 parts ∧
      parts.length = input.parts ∧
      ∀ k, (parts.drop k).flatten.length = input.written - 10000 * k := by
  obtain ⟨full, rest, hfull, hrest, hresults, hscrape⟩ := scrape_eq json input dir
  have hlength : input.results.length = 10000 * full.length + rest.length := by
    rw [hresults, List.length_append, length_flatten_of_full hfull]
  by_cases hcompletes : input.Completes
  · rw [if_pos hcompletes] at hscrape
    refine ⟨full ++ [rest], by rw [hscrape]; rfl, ?_, fun k => ?_⟩
    · rw [ScrapeInput.parts, if_pos hcompletes, List.length_append, List.length_singleton]
      omega
    · rw [length_drop_flatten_append hfull hrest, ScrapeInput.written, if_pos hcompletes]
      omega
  · rw [if_neg hcompletes] at hscrape
    refine ⟨full, by rw [hscrape]; rfl, ?_, fun k => ?_⟩
    · rw [ScrapeInput.parts, if_neg hcompletes]
      omega
    · rw [length_drop_flatten hfull, ScrapeInput.written, if_neg hcompletes]
      omega

/-- What a run that completes writes is the join of its input. -/
theorem scrape_ok (json : Json) {input : ScrapeInput} {dir final : TxDir}
    (h : scrape json input dir = .ok final) :
    ∃ parts : List (List ScrapeResult), final = writeParts json dir 1 parts ∧
      parts.length = input.parts ∧
      parts.flatten.map ScrapeResult.toTransaction = input.join := by
  obtain ⟨full, rest, hfull, hrest, hresults, hscrape⟩ := scrape_eq json input dir
  have hlength : input.results.length = 10000 * full.length + rest.length := by
    rw [hresults, List.length_append, length_flatten_of_full hfull]
  by_cases hcompletes : input.Completes
  · rw [if_pos hcompletes, h] at hscrape
    refine ⟨full ++ [rest], Except.ok.inj hscrape, ?_, ?_⟩
    · rw [ScrapeInput.parts, if_pos hcompletes, List.length_append, List.length_singleton]
      omega
    · rw [List.flatten_append, List.flatten_singleton, ← hresults, hcompletes.results_eq]
      rfl
  · rw [if_neg hcompletes, h] at hscrape
    cases hscrape

/-- What is read after the second run: its own, what the first left in parts of higher numbers,
and what was there before. -/
theorem readWithout_scraped (json : Json) (dir : TxDir) (first second : ScrapeInput) {final : TxDir}
    (hdone : scrape json second (leftBy (scrape json first dir)) = .ok final) :
    ∃ older : List ScrapeResult, older.length = first.written - 10000 * second.parts ∧
      readWithout json final ∅ = (second.join : Multiset Transaction) +
        ((older.map ScrapeResult.toTransaction : List Transaction) +
          readWithout json dir
            (partNames 1 (1 + first.parts) ∪ partNames 1 (1 + second.parts))) := by
  obtain ⟨parts, hleft, hparts, hwritten⟩ := leftBy_eq json first dir
  obtain ⟨parts', rfl, hparts', hjoin⟩ := scrape_ok json hdone
  refine ⟨_, hwritten second.parts, ?_⟩
  rw [hleft,
    readWithout_writeParts json _ 1 1 parts' ∅
      (fun n hn => iff_of_false (Finset.notMem_empty _) (by omega)),
    readWithout_writeParts json dir (1 + second.parts) 1 parts _
      (fun n hn => by rw [Finset.union_empty, hparts', mem_partNames]; omega),
    Nat.sub_self, List.drop_zero, hjoin, Nat.add_sub_cancel_left, Finset.union_empty, hparts,
    hparts']

/-- **The readers get the last run alone exactly if no part of higher number is left with
something in it.**  For every directory and every two runs, the first complete or not: the
transactions that `probeall` and `dump_results` read after the second, in any order of the files,
are the join of its input exactly if the first run wrote no more than fits into the parts of the
second, and no file that neither run wrote has transactions in it.  Every entry of the directory is
a readable text here (on another the readers abort), and no write of the scraper fails. -/
theorem scraped_iff (json : Json) (dir : TxDir) (first second : ScrapeInput) {final : TxDir}
    (hdone : scrape json second (leftBy (scrape json first dir)) = .ok final)
    {order order' : List Text} (horder : order.Perm final.keys) (horder' : order'.Perm final.keys) :
    ((probeallTxs json final order : Multiset Transaction) = second.join ∧
      (dumpResultsTxs json final order' : Multiset Transaction) = second.join) ↔
    first.written ≤ 10000 * second.parts ∧
      ∀ name, (∀ part, 1 ≤ part → part ≤ first.parts ∨ part ≤ second.parts →
        name ≠ partName part) → readTxs json dir name = [] := by
  obtain ⟨older, hlength, hread⟩ := readWithout_scraped json dir first second hdone
  rw [probeallTxs_eq, coe_dumpResultsTxs json _ horder, coe_dumpResultsTxs json _ horder', and_self,
    hread, add_eq_left, add_eq_zero]
  -- nothing is left of the first run, and nothing of what was there before
  refine and_congr ?_ ?_
  · rw [Multiset.coe_eq_zero, List.map_eq_nil_iff, ← List.length_eq_zero_iff, hlength]
    omega
  · rw [readWithout_eq_zero]
    refine forall_congr' fun name => imp_congr_left ?_
    rw [Finset.mem_union, partNames, partNames, Finset.mem_image, Finset.mem_image]
    constructor
    · rintro h part hpos hle rfl
      rcases hle with hle | hle
      · exact h (Or.inl ⟨part, Finset.mem_Ico.mpr ⟨hpos, by omega⟩, rfl⟩)
      · exact h (Or.inr ⟨part, Finset.mem_Ico.mpr ⟨hpos, by omega⟩, rfl⟩)
    · rintro h (⟨part, hpart, rfl⟩ | ⟨part, hpart, rfl⟩)
      · rw [Finset.mem_Ico] at hpart
        exact h part hpart.1 (Or.inl (by omega)) rfl
      · rw [Finset.mem_Ico] at hpart
        exact h part hpart.1 (Or.inr (by omega)) rfl

/-! ## Two outputs -/

/-- An output. -/
def sampleUtxo : UtxoDump := ⟨"ab".toList, 1, 700000, 5000⟩

/-- The line of its transaction. -/
def sampleLine : IterateDump := ⟨"ab".toList, 3⟩

/-- An output of another transaction. -/
def otherUtxo : UtxoDump := ⟨"cd".toList, 0, 700001, 7000⟩

/-- Its line. -/
def otherLine : IterateDump := ⟨"cd".toList, 2⟩

/-- What is found of the first. -/
def sampleResult : ScrapeResult := scrapeResult sampleLine sampleUtxo

/-- And of the other. -/
def otherResult : ScrapeResult := scrapeResult otherLine otherUtxo

/-- One of the two. -/
def oneResult (first : Bool) : ScrapeResult := if first then sampleResult else otherResult

/-- What `serde_json` writes for a result with nothing to escape in it. -/
def resultText (r : ScrapeResult) : Text :=
  "  \x7b\n    \"block_height\": ".toList ++ decimal r.blockHeight.toNat ++
    ",\n    \"id\": \"".toList ++ r.id ++ "\",\n    \"block_index\": ".toList ++
    decimal r.blockIndex.toNat ++ ",\n    \"transaction_index\": ".toList ++
    decimal r.transactionIndex.toNat ++ ",\n    \"amount\": ".toList ++ decimal r.amount.toNat ++
    "\n  \x7d".toList

/-- The results of a list, up to its end. -/
def resultTexts : List Bool → Text
  | [] => []
  | [first] => resultText (oneResult first) ++ "\n]".toList
  | first :: rest => resultText (oneResult first) ++ (",\n".toList ++ resultTexts rest)

/-- What `serde_json` writes for a list of the two. -/
def sampleTexts (firsts : List Bool) : Text :=
  if firsts = [] then "[]".toList else "[\n".toList ++ resultTexts firsts

/-- The results as they are read: both texts are of one length. -/
def readResults : (fuel : Nat) → Text → List Bool
  | 0, _ => []
  | fuel + 1, text =>
    if text = [] then []
    else
      (text.take (resultText sampleResult).length = resultText sampleResult) ::
        readResults fuel (text.drop ((resultText sampleResult).length + 2))

theorem length_resultText (first : Bool) :
    (resultText (oneResult first)).length = (resultText sampleResult).length := by
  cases first with
  | true => rfl
  | false => decide +kernel

theorem resultText_eq_iff (first : Bool) :
    resultText (oneResult first) = resultText sampleResult ↔ first = true := by
  cases first with
  | true => exact iff_of_true rfl rfl
  | false => decide +kernel

/-- One result, and what ends it. -/
theorem readResults_append (fuel : Nat) (first : Bool) (sep : Text) (hsep : sep.length = 2)
    (rest : Text) : readResults (fuel + 1) (resultText (oneResult first) ++ (sep ++ rest)) =
      first :: readResults fuel rest := by
  have hlen := length_resultText first
  have hne : resultText (oneResult first) ++ (sep ++ rest) ≠ [] := by
    intro hnil
    have hzero := congrArg List.length hnil
    rw [List.length_append, List.length_append, hsep, List.length_nil] at hzero
    omega
  have htake : (resultText (oneResult first) ++ (sep ++ rest)).take
      (resultText sampleResult).length = resultText (oneResult first) := by
    rw [← hlen, List.take_left]
  have hdrop : (resultText (oneResult first) ++ (sep ++ rest)).drop
      ((resultText sampleResult).length + 2) = rest := by
    rw [← hlen, ← hsep, ← List.length_append, ← List.append_assoc, List.drop_left]
  rw [readResults, if_neg hne, htake, hdrop]
  simp only [resultText_eq_iff, Bool.decide_eq_true]

theorem readResults_resultTexts {fuel : Nat} {firsts : List Bool} (h : firsts.length ≤ fuel) :
    readResults fuel (resultTexts firsts) = firsts := by
  induction firsts generalizing fuel with
  | nil => cases fuel <;> rfl
  | cons first rest ih =>
    rw [List.length_cons] at h
    obtain ⟨fuel, rfl⟩ : ∃ n, fuel = n + 1 := ⟨fuel - 1, by omega⟩
    cases rest with
    | nil =>
      have hend : readResults fuel [] = [] := by cases fuel <;> rfl
      rw [resultTexts, ← List.append_nil "\n]".toList, readResults_append _ _ _ rfl, hend]
    | cons second rest =>
      rw [resultTexts, readResults_append _ _ _ rfl, ih (by omega)]
      exact nofun

theorem length_le_resultTexts (firsts : List Bool) :
    firsts.length ≤ (resultTexts firsts).length := by
  induction firsts with
  | nil => exact Nat.zero_le _
  | cons first rest ih =>
    cases rest with
    | nil =>
      rw [resultTexts, List.length_append]
      have hend : "\n]".toList.length = 2 := rfl
      rw [hend, List.length_singleton]
      omega
    | cons second rest =>
      rw [resultTexts, List.length_append, List.length_append, List.length_cons]
      · have hsep : ",\n".toList.length = 2 := rfl
        omega
      · exact nofun

/-- A list of the two is read as it was written. -/
theorem readResults_sampleTexts (firsts : List Bool) :
    (sampleTexts firsts).head? = some '[' ∧
      readResults (sampleTexts firsts).length ((sampleTexts firsts).drop 2) = firsts := by
  by_cases hnil : firsts = []
  · subst hnil
    exact ⟨rfl, rfl⟩
  · rw [sampleTexts, if_neg hnil]
    refine ⟨rfl, readResults_resultTexts ?_⟩
    have hle := length_le_resultTexts firsts
    rw [List.length_append]
    omega

/-- The fields of a result, as numbers. -/
def ScrapeResult.fields (r : ScrapeResult) : Nat × List Nat × Nat × Nat × Nat :=
  (r.blockHeight.toNat, r.id.map Char.toNat, r.blockIndex.toNat, r.transactionIndex.toNat,
    r.amount.toNat)

def ScrapeResult.ofFields (fields : Nat × List Nat × Nat × Nat × Nat) : ScrapeResult :=
  ⟨.ofNat fields.1, fields.2.1.map Char.ofNat, .ofNat fields.2.2.1, .ofNat fields.2.2.2.1,
    .ofNat fields.2.2.2.2⟩

theorem ScrapeResult.ofFields_fields (r : ScrapeResult) : ofFields r.fields = r := by
  simp [ofFields, fields, Function.comp_def]

/-- `serde_json` on lists of the two outputs, and any code at all on others. -/
def sampleJson : Json where
  toWriterPretty results :=
    if ∀ r ∈ results, r = sampleResult ∨ r = otherResult then
      sampleTexts (results.map fun r => decide (r = sampleResult))
    else List.replicate (Encodable.encode (results.map ScrapeResult.fields)) '0'
  fromStr text :=
    if text.head? = some '[' then
      some ((readResults text.length (text.drop 2)).map fun first => (oneResult first).toTransaction)
    else
      (Encodable.decode text.length : Option (List (Nat × List Nat × Nat × Nat × Nat))).map
        fun all => all.map fun fields => (ScrapeResult.ofFields fields).toTransaction
  fromStr_toWriterPretty results := by
    by_cases hall : ∀ r ∈ results, r = sampleResult ∨ r = otherResult
    · have hback : results.map (fun r => (oneResult (decide (r = sampleResult))).toTransaction) =
          results.map ScrapeResult.toTransaction := by
        refine List.map_congr_left fun r hr => ?_
        rcases hall r hr with rfl | rfl
        · rfl
        · rfl
      obtain ⟨hhead, hread⟩ :=
        readResults_sampleTexts (results.map fun r => decide (r = sampleResult))
      rw [if_pos hall, if_pos hhead, hread, List.map_map, ← hback]
      rfl
    · rw [if_neg hall, if_neg]
      · simp [ScrapeResult.ofFields_fields, Function.comp_def]
      · rw [List.head?_replicate]
        split <;> simp

/-- Two outputs, and three lines, one of a transaction without an output. -/
def pairInput : ScrapeInput :=
  ⟨[some sampleUtxo, some otherUtxo],
    [some sampleLine, some ⟨"ef".toList, 7⟩, some otherLine]⟩

/-- One output, and its line some number of times. -/
def sampleInput (n : Nat) : ScrapeInput := ⟨[some sampleUtxo], List.replicate n (some sampleLine)⟩

theorem joinDumps_replicate (n : Nat) :
    joinDumps [sampleUtxo] (List.replicate n sampleLine) = List.replicate n sampleResult := by
  induction n with
  | zero => rfl
  | succ n ih =>
    rw [List.replicate_succ, joinDumps_cons, ih]
    rfl

theorem joinDumps_sampleInput (n : Nat) :
    joinDumps (sampleInput n).utxos.reduceOption (sampleInput n).iterate.reduceOption =
      List.replicate n sampleResult := by
  have hlines : (sampleInput n).iterate.reduceOption = List.replicate n sampleLine := by
    simp [sampleInput, List.reduceOption]
  rw [hlines]
  exact joinDumps_replicate n

theorem completes_sampleInput {n : Nat} (hn : n ≤ maxCounter) : (sampleInput n).Completes := by
  refine ⟨by simp [sampleInput], ?_, ?_, ?_⟩
  · intro hmem
    exact absurd (List.eq_of_mem_replicate hmem) (by simp)
  · rw [sampleInput, List.length_replicate]
    exact hn
  · rw [joinDumps_sampleInput, List.length_replicate]
    exact hn

theorem parts_sampleInput {n : Nat} (hn : n ≤ maxCounter) :
    (sampleInput n).parts = n / 10000 + 1 ∧ (sampleInput n).written = n := by
  have hcompletes := completes_sampleInput hn
  have hlength : (sampleInput n).results.length = n := by
    rw [hcompletes.results_eq, joinDumps_sampleInput, List.length_replicate]
  rw [ScrapeInput.parts, ScrapeInput.written, if_pos hcompletes, if_pos hcompletes, hlength]
  exact ⟨rfl, rfl⟩

theorem exists_scrape {n : Nat} (hn : n ≤ maxCounter) (json : Json) (dir : TxDir) :
    ∃ final, scrape json (sampleInput n) dir = .ok final := by
  obtain ⟨full, rest, -, -, -, hscrape⟩ := scrape_eq json (sampleInput n) dir
  rw [if_pos (completes_sampleInput hn)] at hscrape
  exact ⟨_, hscrape⟩

/-- A run that finds two outputs replaces one that has found 10000, in two parts of which the
second was empty. -/
theorem scraped_once_again : ∃ final,
    scrape sampleJson pairInput (leftBy (scrape sampleJson (sampleInput 10000) ∅)) = .ok final ∧
    (probeallTxs sampleJson final final.keys : Multiset Transaction) = pairInput.join ∧
    (dumpResultsTxs sampleJson final final.keys : Multiset Transaction) = pairInput.join ∧
    pairInput.join = [sampleResult.toTransaction, otherResult.toTransaction] := by
  have hmany : 10000 ≤ maxCounter := by decide
  have hcompletes : pairInput.Completes := by decide
  obtain ⟨full, rest, -, -, -, hscrape⟩ :=
    scrape_eq sampleJson pairInput (leftBy (scrape sampleJson (sampleInput 10000) ∅))
  rw [if_pos hcompletes] at hscrape
  have hparts : pairInput.parts = 1 := by decide
  obtain ⟨hprobeall, hdump⟩ := (scraped_iff sampleJson ∅ (sampleInput 10000) pairInput hscrape
    (List.Perm.refl _) (List.Perm.refl _)).mpr
      ⟨by rw [(parts_sampleInput hmany).2, hparts], fun name _ => rfl⟩
  exact ⟨_, hscrape, hprobeall, hdump, rfl⟩

/-- A second run that finds less leaves the end of the first, and it is read. -/
theorem scraped_leftover : ∃ final,
    scrape sampleJson (sampleInput 1) (leftBy (scrape sampleJson (sampleInput 10001) ∅)) =
      .ok final ∧
    (probeallTxs sampleJson final final.keys : Multiset Transaction) ≠ (sampleInput 1).join := by
  have hone : 1 ≤ maxCounter := by decide
  have hmany : 10001 ≤ maxCounter := by decide
  obtain ⟨final, hfinal⟩ :=
    exists_scrape hone sampleJson (leftBy (scrape sampleJson (sampleInput 10001) ∅))
  refine ⟨final, hfinal, ?_⟩
  obtain ⟨older, hlength, hread⟩ := readWithout_scraped sampleJson ∅ _ _ hfinal
  rw [(parts_sampleInput hone).1, (parts_sampleInput hmany).2] at hlength
  rw [probeallTxs_eq, coe_dumpResultsTxs sampleJson _ (List.Perm.refl _), hread]
  intro heq
  have hzero := (add_eq_zero.mp (add_eq_left.mp heq)).1
  rw [Multiset.coe_eq_zero, List.map_eq_nil_iff] at hzero
  rw [hzero, List.length_nil] at hlength
  omega

end HiddenLightning
