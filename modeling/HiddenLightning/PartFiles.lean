import HiddenLightning.Scraper

/-! # The parts one run writes

A directory does not tell how often a file was written.  So here is the scraper's loop once
more with the parts it writes in place of the directory, in the order it writes them
(`scrapeLog`); `scrape_eq_scrapeLog` says that a run of `scrape` is these writes, on whatever
directory it finds.

The invariant of the loop (`ScrapeLog.Filed`) links `found`, `part` and the buffer: the parts so
far are numbered from 1, each is full, and with the buffer they are all that was found.
`parts_join_iff` then says when a run writes exactly the join: whenever it can count its lines
and its results, for which it has counters of type `i32`.
-/
namespace HiddenLightning
open Numerals

/-! ## The loop and its writes -/

/-- The state of the loop, with the parts written so far by number. -/
structure ScrapeLog where
  written : List (Nat × List ScrapeResult)
  scrapeResults : List ScrapeResult
  i : Nat
  found : Nat
  part : Nat

namespace ScrapeLog

/-- Before the first line. -/
def start : ScrapeLog := ⟨[], [], 0, 0, 1⟩

/-- One result is found. -/
def push (s : ScrapeLog) (result : ScrapeResult) : Except ScrapeLog ScrapeLog :=
  if s.found = maxCounter then .error s
  else if (s.found + 1) % 10000 = 0 then
    .ok { s with
      written := s.written ++ [(s.part, s.scrapeResults ++ [result])]
      scrapeResults := []
      found := s.found + 1
      part := s.part + 1 }
  else .ok { s with scrapeResults := s.scrapeResults ++ [result], found := s.found + 1 }

/-- One line of the list of transactions. -/
def analyze (utxoDump : UtxoMap) (s : ScrapeLog) : Option IterateDump → Except ScrapeLog ScrapeLog
  | none => .error s
  | some iterate =>
    if s.i = maxCounter then .error s
    else
      match utxoDump.lookup iterate.txid with
      | some utxos => (utxos.map (scrapeResult iterate)).foldlM push { s with i := s.i + 1 }
      | none => .ok { s with i := s.i + 1 }

end ScrapeLog

/-- `main` of the scraper, with what it writes. -/
def scrapeLog (input : ScrapeInput) : Except ScrapeLog ScrapeLog :=
  match input.utxos.mapM id with
  | none => .error .start
  | some utxos => do
    let s ← input.iterate.foldlM (ScrapeLog.analyze (utxos.foldl addUtxo ∅)) .start
    .ok { s with written := s.written ++ [(s.part, s.scrapeResults)] }

/-! ## The writes on a directory -/

/-- Parts written to a directory. -/
def writeLog (json : Json) (dir : TxDir) (written : List (Nat × List ScrapeResult)) : TxDir :=
  written.foldl (fun dir part => dir.insert (partName part.1) (json.toWriterPretty part.2)) dir

/-- The state of the scraper that started with a directory. -/
def ScrapeLog.inDir (json : Json) (dir : TxDir) (s : ScrapeLog) : Scraping :=
  ⟨writeLog json dir s.written, s.scrapeResults, s.i, s.found, s.part⟩

/-- How a loop ends, in a directory. -/
def endInDir (json : Json) (dir : TxDir) : Except ScrapeLog ScrapeLog → Except TxDir Scraping
  | .ok s => .ok (s.inDir json dir)
  | .error s => .error (writeLog json dir s.written)

section
variable (json : Json) (dir : TxDir)

theorem writeLog_append (written : List (Nat × List ScrapeResult)) (part : Nat)
    (results : List ScrapeResult) :
    writeLog json dir (written ++ [(part, results)]) =
      (writeLog json dir written).insert (partName part) (json.toWriterPretty results) := by
  rw [writeLog, List.foldl_append]
  rfl

/-- A loop whose steps do the same in a directory does the same. -/
theorem foldlM_inDir {α : Type} {step : ScrapeLog → α → Except ScrapeLog ScrapeLog}
    {step' : Scraping → α → Except TxDir Scraping}
    (h : ∀ s a, step' (s.inDir json dir) a = endInDir json dir (step s a)) (as : List α)
    (s : ScrapeLog) :
    as.foldlM step' (s.inDir json dir) = endInDir json dir (as.foldlM step s) := by
  induction as generalizing s with
  | nil => rfl
  | cons a as ih =>
    rw [List.foldlM_cons, List.foldlM_cons, h]
    rcases step s a with s' | s'
    · rfl
    · exact ih s'

theorem push_inDir (s : ScrapeLog) (result : ScrapeResult) :
    (s.inDir json dir).push json result = endInDir json dir (s.push result) := by
  unfold Scraping.push ScrapeLog.push
  by_cases hmax : s.found = maxCounter
  · have hmax' : (s.inDir json dir).found = maxCounter := hmax
    rw [if_pos hmax, if_pos hmax']
    rfl
  · have hmax' : (s.inDir json dir).found ≠ maxCounter := hmax
    rw [if_neg hmax, if_neg hmax']
    by_cases hfull : (s.found + 1) % 10000 = 0
    · have hfull' : ((s.inDir json dir).found + 1) % 10000 = 0 := hfull
      rw [if_pos hfull, if_pos hfull']
      exact congrArg (fun left => Except.ok (Scraping.mk left [] s.i (s.found + 1) (s.part + 1)))
        (writeLog_append json dir s.written s.part (s.scrapeResults ++ [result])).symm
    · have hfull' : ((s.inDir json dir).found + 1) % 10000 ≠ 0 := hfull
      rw [if_neg hfull, if_neg hfull']
      rfl

theorem analyze_inDir (utxoDump : UtxoMap) (s : ScrapeLog) (line : Option IterateDump) :
    (s.inDir json dir).analyze json utxoDump line = endInDir json dir (s.analyze utxoDump line) := by
  rcases line with _ | iterate
  · rfl
  unfold Scraping.analyze ScrapeLog.analyze
  by_cases hmax : s.i = maxCounter
  · have hmax' : (s.inDir json dir).i = maxCounter := hmax
    dsimp only
    rw [if_pos hmax, if_pos hmax']
    rfl
  · have hmax' : (s.inDir json dir).i ≠ maxCounter := hmax
    dsimp only
    rw [if_neg hmax, if_neg hmax']
    cases utxoDump.lookup iterate.txid with
    | none => rfl
    | some utxos => exact foldlM_inDir json dir (push_inDir json dir) _ { s with i := s.i + 1 }

/-- **A run of the scraper is its writes.** -/
theorem scrape_eq_scrapeLog (input : ScrapeInput) : scrape json input dir =
    match scrapeLog input with
    | .ok log => .ok (writeLog json dir log.written)
    | .error log => .error (writeLog json dir log.written) := by
  unfold scrape scrapeLog
  cases input.utxos.mapM id with
  | none => rfl
  | some utxos =>
    have hloop := foldlM_inDir json dir (analyze_inDir json dir (utxos.foldl addUtxo ∅))
      input.iterate .start
    have hstart : ScrapeLog.start.inDir json dir = ⟨dir, [], 0, 0, 1⟩ := rfl
    rw [hstart] at hloop
    dsimp only
    rw [hloop]
    rcases input.iterate.foldlM (ScrapeLog.analyze (utxos.foldl addUtxo ∅)) .start with s | s
    · rfl
    · show Except.ok _ = Except.ok _
      rw [writeLog_append]
      rfl

end

/-! ## The invariant of the loop -/

/-- **Of the results so far, the full parts are written and the rest is kept.** -/
structure ScrapeLog.Filed (results : List ScrapeResult) (s : ScrapeLog) : Prop where
  numbers : s.written.map Prod.fst = List.range' 1 s.written.length
  part_eq : s.part = 1 + s.written.length
  full : ∀ part ∈ s.written, part.2.length = 10000
  results_eq : results = (s.written.map Prod.snd).flatten ++ s.scrapeResults
  found_eq : s.found = results.length
  rest_lt : s.scrapeResults.length < 10000

/-- Parts written one after the other are numbered from 1. -/
theorem numbers_append {written : List (Nat × List ScrapeResult)} {part : Nat}
    (h : written.map Prod.fst = List.range' 1 written.length) (hpart : part = 1 + written.length)
    (results : List ScrapeResult) :
    (written ++ [(part, results)]).map Prod.fst =
      List.range' 1 (written ++ [(part, results)]).length := by
  rw [List.map_append, h, hpart, List.length_append, List.length_singleton, List.range'_concat]
  simp

section
variable {s s' : ScrapeLog} {results : List ScrapeResult}

theorem ScrapeLog.Filed.push (h : s.Filed results) {result : ScrapeResult}
    (hpush : s.push result = .ok s') : s'.Filed (results ++ [result]) := by
  have hfull : ∀ part ∈ s.written.map Prod.snd, part.length = 10000 := by
    intro part hpart
    obtain ⟨entry, hentry, rfl⟩ := List.mem_map.mp hpart
    exact h.full entry hentry
  have hlength : results.length = 10000 * s.written.length + s.scrapeResults.length := by
    rw [h.results_eq, List.length_append, length_flatten_of_full hfull, List.length_map]
  have hfound := h.found_eq
  have hrest := h.rest_lt
  unfold ScrapeLog.push at hpush
  split_ifs at hpush with hmax hmod
  · -- `found` is a multiple of the size of a part, and what was written is too, so this one is full
    cases hpush
    refine ⟨numbers_append h.numbers h.part_eq _, ?_, ?_, ?_, ?_, ?_⟩
    · show s.part + 1 = _
      rw [h.part_eq, List.length_append]
      rfl
    · intro part hpart
      rcases List.mem_append.mp hpart with hpart | hpart
      · exact h.full part hpart
      · rw [List.mem_singleton.mp hpart, List.length_append, List.length_singleton]
        omega
    · rw [h.results_eq]
      simp
    · show s.found + 1 = _
      rw [hfound, List.length_append, List.length_singleton]
    · show 0 < 10000
      omega
  · cases hpush
    refine ⟨h.numbers, h.part_eq, h.full, ?_, ?_, ?_⟩
    · rw [h.results_eq, List.append_assoc]
    · show s.found + 1 = _
      rw [hfound, List.length_append, List.length_singleton]
    · show (s.scrapeResults ++ [result]).length < 10000
      rw [List.length_append, List.length_singleton]
      omega

theorem ScrapeLog.Filed.pushes (h : s.Filed results) {more : List ScrapeResult}
    (hpush : more.foldlM ScrapeLog.push s = .ok s') : s'.Filed (results ++ more) := by
  induction more generalizing s results with
  | nil =>
    cases hpush
    rw [List.append_nil]
    exact h
  | cons result more ih =>
    rw [List.foldlM_cons] at hpush
    rcases hstep : s.push result with left | mid
    · rw [hstep] at hpush
      cases hpush
    · rw [hstep] at hpush
      have hrest := ih (h.push hstep) hpush
      rwa [List.append_assoc] at hrest

theorem ScrapeLog.Filed.analyze (h : s.Filed results) {utxos : List UtxoDump} {line : IterateDump}
    (hline : s.analyze (utxos.foldl addUtxo ∅) (some line) = .ok s') :
    s'.Filed (results ++ joinDumps utxos [line]) := by
  have hjoin : joinDumps utxos [line] =
      (((utxos.foldl addUtxo ∅).lookup line.txid).getD []).map (scrapeResult line) := by
    rw [lookup_foldl_addUtxo, joinDumps, List.flatMap_singleton]
    rfl
  have hcounted : ({ s with i := s.i + 1 } : ScrapeLog).Filed results :=
    ⟨h.numbers, h.part_eq, h.full, h.results_eq, h.found_eq, h.rest_lt⟩
  unfold ScrapeLog.analyze at hline
  dsimp only at hline
  split_ifs at hline
  rw [hjoin]
  revert hline
  cases (utxos.foldl addUtxo ∅).lookup line.txid with
  | none =>
    intro hline
    cases hline
    rw [Option.getD_none, List.map_nil, List.append_nil]
    exact hcounted
  | some found =>
    intro hline
    exact hcounted.pushes hline

/-- **A whole run**: the loop over the lines keeps the invariant. -/
theorem ScrapeLog.Filed.analyzeAll (h : s.Filed results) {utxos : List UtxoDump}
    {lines : List IterateDump}
    (hlines : (lines.map some).foldlM (ScrapeLog.analyze (utxos.foldl addUtxo ∅)) s = .ok s') :
    s'.Filed (results ++ joinDumps utxos lines) := by
  induction lines generalizing s results with
  | nil =>
    cases hlines
    show ScrapeLog.Filed (results ++ []) _
    rw [List.append_nil]
    exact h
  | cons line lines ih =>
    rw [List.map_cons, List.foldlM_cons] at hlines
    rcases hstep : s.analyze (utxos.foldl addUtxo ∅) (some line) with left | mid
    · rw [hstep] at hlines
      cases hlines
    · rw [hstep] at hlines
      have hrest := ih (h.analyze hstep) hlines
      rwa [List.append_assoc, ← joinDumps_cons] at hrest

end

/-! ## The join in parts -/

/-- **The run writes exactly the join**: parts 1 to k, each once and in this order, all but the
last with 10000 records and the last with fewer, and `found` counts them. -/
structure WritesJoin (utxos : List UtxoDump) (iterate : List IterateDump) (log : ScrapeLog) :
    Prop where
  numbers : log.written.map Prod.fst = List.range' 1 log.written.length
  join : (log.written.map Prod.snd).flatten = joinDumps utxos iterate
  full : ∀ part ∈ log.written.dropLast, part.2.length = 10000
  rest : ∃ last, log.written.getLast? = some last ∧ last.2.length < 10000
  found : log.found = (joinDumps utxos iterate).length

/-- Two files without unreadable records. -/
def ScrapeInput.ofRows (utxos : List UtxoDump) (iterate : List IterateDump) : ScrapeInput :=
  ⟨utxos.map some, iterate.map some⟩

theorem mapM_id_map_some {α : Type} (xs : List α) : (xs.map some).mapM id = some xs := by
  induction xs with
  | nil => rfl
  | cons x xs ih =>
    rw [List.map_cons, List.mapM_cons, ih]
    rfl

theorem reduceOption_map_some {α : Type} (xs : List α) : (xs.map some).reduceOption = xs := by
  rw [List.reduceOption, List.filterMap_map, Function.id_comp, List.filterMap_some]

theorem writesJoin_of_scrapeLog {utxos : List UtxoDump} {iterate : List IterateDump}
    {log : ScrapeLog} (h : scrapeLog (.ofRows utxos iterate) = .ok log) :
    WritesJoin utxos iterate log := by
  have hstart : ScrapeLog.start.Filed [] :=
    ⟨rfl, rfl, by simp [ScrapeLog.start], rfl, rfl, by simp [ScrapeLog.start]⟩
  unfold scrapeLog ScrapeInput.ofRows at h
  rw [mapM_id_map_some] at h
  dsimp only at h
  rcases hloop : (iterate.map some).foldlM (ScrapeLog.analyze (utxos.foldl addUtxo ∅)) .start
    with left | s
  · rw [hloop] at h
    cases h
  · rw [hloop] at h
    cases h
    have hfiled := hstart.analyzeAll hloop
    rw [List.nil_append] at hfiled
    refine ⟨numbers_append hfiled.numbers hfiled.part_eq _, ?_, ?_, ?_, hfiled.found_eq⟩
    · rw [hfiled.results_eq]
      simp
    · rw [List.dropLast_concat]
      exact hfiled.full
    · exact ⟨_, List.getLast?_concat, hfiled.rest_lt⟩

/-- The run completes exactly if its lines and its results can be counted. -/
theorem completes_ofRows_iff (utxos : List UtxoDump) (iterate : List IterateDump) :
    (ScrapeInput.ofRows utxos iterate).Completes ↔
      iterate.length ≤ maxCounter ∧ (joinDumps utxos iterate).length ≤ maxCounter := by
  unfold ScrapeInput.Completes ScrapeInput.ofRows
  rw [reduceOption_map_some, reduceOption_map_some, List.length_map]
  simp

theorem isOk_scrapeLog_iff (input : ScrapeInput) :
    (∃ log, scrapeLog input = .ok log) ↔ input.Completes := by
  -- whether a run completes does not depend on the directory
  have hscrape := scrape_eq_scrapeLog sampleJson ∅ input
  obtain ⟨full, rest, -, -, -, hleft⟩ := scrape_eq sampleJson input ∅
  rw [hscrape] at hleft
  rcases hlog : scrapeLog input with log | log
  · rw [hlog] at hleft
    refine iff_of_false ?_ ?_
    · rintro ⟨log', hok⟩
      cases hok
    · intro hcompletes
      rw [if_pos hcompletes] at hleft
      cases hleft
  · rw [hlog] at hleft
    refine iff_of_true ⟨log, rfl⟩ ?_
    by_contra hcompletes
    rw [if_neg hcompletes] at hleft
    cases hleft

/-- **A run writes exactly the join in parts, exactly if it can count its lines and its results.**
For all lists of rows in the two files, with transactions repeated or not, and every directory. -/
theorem parts_join_iff (utxos : List UtxoDump) (iterate : List IterateDump) :
    (∃ log, scrapeLog (.ofRows utxos iterate) = .ok log ∧ WritesJoin utxos iterate log ∧
      ∀ json dir, scrape json (.ofRows utxos iterate) dir =
        .ok (writeLog json dir log.written)) ↔
    iterate.length ≤ maxCounter ∧ (joinDumps utxos iterate).length ≤ maxCounter := by
  rw [← completes_ofRows_iff, ← isOk_scrapeLog_iff]
  constructor
  · rintro ⟨log, hlog, -⟩
    exact ⟨log, hlog⟩
  · rintro ⟨log, hlog⟩
    refine ⟨log, hlog, writesJoin_of_scrapeLog hlog, fun json dir => ?_⟩
    rw [scrape_eq_scrapeLog, hlog]

/-- A list of 2^31 lines overflows the counter of the lines. -/
theorem parts_overflow : ¬ ∃ log, scrapeLog (.ofRows [] (List.replicate 2147483648 sampleLine)) =
    .ok log := by
  rw [isOk_scrapeLog_iff, completes_ofRows_iff, List.length_replicate]
  rintro ⟨hlines, -⟩
  exact absurd hlines (by decide)

end HiddenLightning
