import Lexing.Listing.Summary
import Lexing.Proofs.Lemmas.ListingReading
import Lexing.Proofs.Lemmas.Metrics
import Mathlib.Algebra.BigOperators.Group.List.Lemmas

/-!
# Reading summaries

A summary is a heading and a table, one row to a line. The reader `readSummary?` takes it apart at its line feeds, and each row at the
column of names; the rows are then those of kinds, the total and, if there is one, the row of signals. So a summary has nothing in it
but its table (`readSummary?_summary`).

The rows are made from counts that are kept side by side. `Table.Agrees` says what they tell of the tokens that were counted, and of
each other, and `Table.agrees_ofMetrics` that they do. Both sums in it are sums of counts by kind (`Table.sumOf_ofMetrics`).
-/

namespace Lexing

namespace Listing

/-! ## Rows -/

/-- The characters of a row, without its end. -/
def rowChars (name : String) (count : Nat) : List Char :=
  [' ', ' '] ++ (Text.padRight nameWidth name).toList ++ ' ' :: Nat.toDigits 10 count

theorem toList_summaryRow (name : String) (count : Nat) : (summaryRow name count).toList = rowChars name count ++ ['\n'] := by
  have hstring : ∀ s : String, toString s = s := fun _ => rfl
  simp [summaryRow, rowChars, hstring, Nat.repr_eq_ofList_toDigits]

/-- A name that can be read off its column: it is not too long, does not end in a space, and is a single line. -/
structure FitsColumn (name : String) : Prop where
  length_le : name.toList.length ≤ nameWidth
  getLast?_ne : name.toList.getLast? ≠ some ' '
  lineFeed_not_mem : '\n' ∉ name.toList

theorem fitsColumn_name (kind : Kind) : FitsColumn kind.name := by
  cases kind <;> exact ⟨by decide, by decide, by decide⟩

theorem fitsColumn_total : FitsColumn "Total" := ⟨by decide, by decide, by decide⟩

theorem fitsColumn_signals : FitsColumn "Error signals" := ⟨by decide, by decide, by decide⟩

/-- The name and the count of a row. The name is what stands in its column, without the spaces that fill it. -/
def readRow? (row : List Char) : Option (String × Nat) := do
  let rest ← [' ', ' '].isPrefixOf? row
  match rest.drop nameWidth with
  | ' ' :: digits =>
    let (count, behind) ← Json.number digits
    if behind = [] then some (String.ofList ((rest.take nameWidth).rdropWhile (· = ' ')), count) else none
  | _ => none

/-- Spaces behind a text that does not end in one are dropped. -/
theorem rdropWhile_append_replicate {cs : List Char} (h : cs.getLast? ≠ some ' ') (n : Nat) :
    (cs ++ List.replicate n ' ').rdropWhile (· = ' ') = cs := by
  have hspaces : (List.replicate n ' ').rdropWhile (· = ' ') = [] := by
    rw [List.rdropWhile_eq_nil_iff]
    intro c hc
    exact decide_eq_true (List.eq_of_mem_replicate hc)
  rw [Text.rdropWhile_append, if_pos hspaces, List.rdropWhile_eq_self_iff]
  intro hne hlast
  exact h (by rw [List.getLast?_eq_some_getLast hne, of_decide_eq_true hlast])

/-- A row gives back its name and its count. -/
theorem readRow?_rowChars {name : String} (h : FitsColumn name) (count : Nat) :
    readRow? (rowChars name count) = some (name, count) := by
  have hpadded : (Text.padRight nameWidth name).toList = name.toList ++ List.replicate (nameWidth - name.length) ' ' := by
    rw [Text.padRight, String.toList_append, String.toList_ofList]
  have hwidth : (Text.padRight nameWidth name).toList.length = nameWidth := by
    have hle := h.length_le
    rw [hpadded, List.length_append, List.length_replicate, String.length_toList]
    rw [String.length_toList] at hle
    omega
  have hrow : [' ', ' '].isPrefixOf? (rowChars name count) =
      some ((Text.padRight nameWidth name).toList ++ ' ' :: Nat.toDigits 10 count) :=
    List.isPrefixOf?_eq_some_iff_append_eq.2 (List.append_assoc _ _ _).symm
  have hnumber := Json.number_toDigits count Json.noDigit_nil
  rw [List.append_nil] at hnumber
  unfold readRow?
  simp only [hrow, Option.bind_eq_bind, Option.bind_some, List.drop_left' hwidth, List.take_left' hwidth, hnumber, if_true]
  rw [hpadded, rdropWhile_append_replicate h.getLast?_ne, String.ofList_toList]

theorem lineFeed_not_mem_rowChars {name : String} (h : FitsColumn name) (count : Nat) : '\n' ∉ rowChars name count := by
  simp [rowChars, Text.padRight, h.lineFeed_not_mem, lineFeed_not_mem_toDigits]

/-! ## Tables -/

/-- The table of a summary. -/
structure Table where
  /-- The rows of kinds, in order. -/
  kinds : List (Kind × Nat)
  total : Nat
  /-- The number of signals, if there is a row for it. -/
  signals : Option Nat
deriving DecidableEq, Repr

namespace Table

/-- The sum of the rows of some kinds. -/
def sumOf (p : Kind → Bool) (table : Table) : Nat := ((table.kinds.filter fun row => p row.1).map Prod.snd).sum

/-- The rows of a table. -/
def rows (table : Table) : List (String × Nat) :=
  table.kinds.map (fun row => (row.1.name, row.2)) ++ ("Total", table.total) ::
    (table.signals.map fun count => ("Error signals", count)).toList

/-- The table of some rows: those of kinds, and behind them the total and the signals. -/
def ofRows? : List (String × Nat) → Option Table
  | [] => none
  | [("Total", total)] => some ⟨[], total, none⟩
  | [("Total", total), ("Error signals", signals)] => some ⟨[], total, some signals⟩
  | (name, count) :: rest => do
    let kind ← Kind.ofName? name
    let table ← ofRows? rest
    return { table with kinds := (kind, count) :: table.kinds }

theorem name_ne_total (kind : Kind) : kind.name ≠ "Total" := by cases kind <;> decide

/-- A table is read back from its rows. -/
theorem ofRows?_rows (table : Table) : ofRows? table.rows = some table := by
  obtain ⟨kinds, total, signals⟩ := table
  induction kinds with
  | nil => cases signals <;> rfl
  | cons row kinds ih =>
    obtain ⟨kind, count⟩ := row
    have hrest : ofRows? (rows ⟨kinds, total, signals⟩) = some ⟨kinds, total, signals⟩ := ih
    have hrows : rows ⟨(kind, count) :: kinds, total, signals⟩ = (kind.name, count) :: rows ⟨kinds, total, signals⟩ := rfl
    -- The name of a kind is not that of the total, so the row is one of a kind.
    rw [hrows, ofRows?, Kind.ofName?_name, hrest]
    · rfl
    · exact fun _ he => absurd he (name_ne_total kind)
    · exact fun _ _ he => absurd he (name_ne_total kind)

/-- Each name fits its column. -/
theorem fitsColumn_of_mem_rows {table : Table} {row : String × Nat} (h : row ∈ table.rows) : FitsColumn row.1 := by
  obtain ⟨kinds, total, signals⟩ := table
  rcases List.mem_append.1 h with h | h
  · obtain ⟨row, -, rfl⟩ := List.mem_map.1 h
    exact fitsColumn_name row.1
  · rcases List.mem_cons.1 h with rfl | h
    · exact fitsColumn_total
    · obtain ⟨count, -, rfl⟩ := Option.map_eq_some_iff.1 (Option.mem_toList.1 h)
      exact fitsColumn_signals

/-- The table of the counts of an analysis. -/
def ofMetrics (metrics : Metrics) (significant : Nat) : Table where
  kinds := (Kind.all.map fun kind => (kind, metrics.tally.get kind)).filter fun row => 0 < row.2
  total := significant
  signals := if 0 < metrics.signals then some metrics.signals else none

theorem rows_ofMetrics (metrics : Metrics) (significant : Nat) :
    (ofMetrics metrics significant).rows = summaryRows metrics significant := by
  have hkinds : ((Kind.all.map fun kind => (kind, metrics.tally.get kind)).filter fun row => 0 < row.2).map
        (fun row => (row.1.name, row.2)) =
      (Kind.all.map fun kind => (kind.name, metrics.tally.get kind)).filter fun row => 0 < row.2 := by
    rw [List.filter_map, List.filter_map, List.map_map]
    rfl
  have hsignals : ((if 0 < metrics.signals then some metrics.signals else none).map fun count => ("Error signals", count)).toList =
      if 0 < metrics.signals then [("Error signals", metrics.signals)] else [] := by
    split <;> rfl
  rw [summaryRows, List.append_assoc, List.singleton_append, rows, ofMetrics, hkinds, hsignals]

end Table

/-! ## Summaries -/

/-- What stands over a table. -/
def heading : List Char := "Token summary:".toList

/-- The table of a summary. -/
def readSummary? (text : String) : Option Table := do
  let lines ← Text.lines? text
  match lines with
  | [] => none
  | first :: rest =>
    let rows ← rest.mapM readRow?
    if first = heading then Table.ofRows? rows else none

/-- A summary is its heading and the rows of its table, with a line feed behind each. -/
theorem toList_summaryText (rows : List (String × Nat)) :
    ("Token summary:\n" ++ String.join (rows.map fun (name, count) => summaryRow name count)).toList =
      (heading :: rows.map fun row => rowChars row.1 row.2).flatMap (· ++ ['\n']) := by
  have hheading : "Token summary:\n".toList = heading ++ ['\n'] := by decide
  rw [String.toList_append, hheading, String.toList_join, List.flatMap_cons, List.flatMap_map, List.flatMap_map]
  simp only [toList_summaryRow]

/-- The summary of an analysis gives back the table of its counts, and holds nothing else. -/
theorem readSummary?_summary {metrics : Metrics} {significant : Nat} (h : metrics.significant = .ok significant) :
    ∃ text, summary metrics = .ok text ∧ readSummary? text = some (.ofMetrics metrics significant) := by
  have hrows := Table.rows_ofMetrics metrics significant
  generalize Table.ofMetrics metrics significant = table at hrows ⊢
  refine ⟨"Token summary:\n" ++ String.join (table.rows.map fun (name, count) => summaryRow name count), ?_, ?_⟩
  · rw [summary, h, hrows]
  · have hfeed : ∀ line ∈ heading :: table.rows.map (fun row => rowChars row.1 row.2), '\n' ∉ line := by
      intro line hl
      rcases List.mem_cons.1 hl with rfl | hl
      · decide
      · obtain ⟨row, hr, rfl⟩ := List.mem_map.1 hl
        exact lineFeed_not_mem_rowChars (Table.fitsColumn_of_mem_rows hr) row.2
    have hlines := Text.lines?_eq (toList_summaryText table.rows) hfeed
    have hread : (table.rows.map fun row => rowChars row.1 row.2).mapM readRow? = some (table.rows.map id) :=
      mapM_map_eq_some table.rows fun row hr => readRow?_rowChars (Table.fitsColumn_of_mem_rows hr) row.2
    simp only [readSummary?, hlines, Option.bind_eq_bind, Option.bind_some, hread, List.map_id, if_true, Table.ofRows?_rows]

/-! ## What a table tells -/

/-- The counts of kinds add up to the number of items that satisfy a condition, when the kinds are those of such items and none is
listed twice. -/
theorem sum_count {kinds items : List Kind} {p : Kind → Bool} (hn : kinds.Nodup) (h : ∀ kind, kind ∈ kinds ↔ kind ∈ items ∧ p kind) :
    (kinds.map fun kind => items.count kind).sum = items.countP p := by
  have hperm : kinds.Perm (items.dedup.filter p) :=
    (List.perm_ext_iff_of_nodup hn (items.nodup_dedup.filter p)).2 fun kind => by rw [h, List.mem_filter, List.mem_dedup]
  rw [(hperm.map _).sum_eq, List.sum_map_count_dedup_filter_eq_countP]

/-- What the table of an analysis tells of the tokens that were taken. -/
structure Table.Agrees (settings : AnalysisSettings) (tokens : List (Located Token)) (metrics : Metrics) (table : Table) : Prop where
  /-- The rows of kinds are in the order of listings, and so no kind has two. -/
  sorted : Assoc.Sorted Kind.compare table.kinds
  /-- There is a row for each kind with a count, and for no other. -/
  mem_iff : ∀ kind count, (kind, count) ∈ table.kinds ↔ count = metrics.tally.get kind ∧ 0 < count
  /-- The count of a row is the number of tokens of its kind. -/
  count_eq : ∀ kind count, (kind, count) ∈ table.kinds → count = tokens.countP fun token => token.value.kind = kind
  /-- The total is the number of tokens that are not blank runs. -/
  total_eq : table.total = tokens.countP fun token => token.value.kind ≠ .blank
  /-- The rows of kinds, that of blank runs apart, add up to the total. -/
  sum_eq : table.sumOf (· ≠ .blank) = table.total
  /-- There is a row for blank runs exactly when these are counted and there are some. -/
  blank_iff : (∃ count, (Kind.blank, count) ∈ table.kinds) ↔
    settings.countBlanks = true ∧ ∃ token ∈ tokens, token.value.kind = .blank
  /-- There is a row for signals exactly when there are some. -/
  signals_iff : table.signals.isSome ↔ ∃ token ∈ tokens, token.value.kind.isSignal
  /-- The number of signals is the sum of the rows of their two kinds. -/
  signals_eq : ∀ count, table.signals = some count → count = table.sumOf (· ∈ [.invalid, .inclusion])

section Agreement

variable {settings : AnalysisSettings} {characters significant : Nat} {tokens : List (Located Token)} {metrics : Metrics}

theorem Table.mem_kinds_ofMetrics {kind : Kind} {count : Nat} :
    (kind, count) ∈ (Table.ofMetrics metrics significant).kinds ↔ count = metrics.tally.get kind ∧ 0 < count := by
  rw [ofMetrics, List.mem_filter, decide_eq_true_iff, List.mem_map]
  refine and_congr_left fun _ => ?_
  constructor
  · rintro ⟨other, -, he⟩
    cases he
    rfl
  · rintro rfl
    exact ⟨kind, kind.mem_all, rfl⟩

/-- The rows of kinds whose tokens are all tallied add up to the number of these tokens. -/
theorem Table.sumOf_ofMetrics {p : Kind → Bool}
    (h : ∀ kind, p kind → metrics.tally.get kind = tokens.countP fun token => token.value.kind = kind) :
    (Table.ofMetrics metrics significant).sumOf p = tokens.countP fun token => p token.value.kind := by
  have hcount : ∀ kind, p kind → metrics.tally.get kind = (tokens.map fun token => token.value.kind).count kind := by
    intro kind hp
    rw [h kind hp, List.count_eq_countP, List.countP_map]
    rfl
  have hrows : ((Table.ofMetrics metrics significant).kinds.filter fun row => p row.1).map Prod.snd =
      (Kind.all.filter fun kind => p kind && decide (0 < metrics.tally.get kind)).map fun kind =>
        (tokens.map fun token => token.value.kind).count kind := by
    rw [ofMetrics, List.filter_filter, List.filter_map, List.map_map]
    refine List.map_congr_left ?_
    intro kind hk
    exact hcount kind (Bool.and_eq_true_iff.1 (List.mem_filter.1 hk).2).1
  have hnodup : Kind.all.Nodup := by decide
  rw [Table.sumOf, hrows, sum_count (p := p) (hnodup.filter _), List.countP_map]
  · rfl
  · intro kind
    rw [List.mem_filter, Bool.and_eq_true, decide_eq_true_iff]
    constructor
    · rintro ⟨-, hp, hpos⟩
      rw [hcount kind hp, List.count_pos_iff] at hpos
      exact ⟨hpos, hp⟩
    · rintro ⟨hm, hp⟩
      rw [hcount kind hp, List.count_pos_iff]
      exact ⟨kind.mem_all, hp, hm⟩

/-- The table of the counts of an analysis agrees with the tokens that were counted, when details are wanted. -/
theorem Table.agrees_ofMetrics (h : Metrics.CountsOf settings characters tokens metrics) (hd : settings.detailed)
    (hs : metrics.significant = .ok significant) : (Table.ofMetrics metrics significant).Agrees settings tokens metrics := by
  have hget := (h.detailed hd).get_eq
  have htallied : ∀ kind, kind ≠ .blank → metrics.tally.get kind = tokens.countP fun token => token.value.kind = kind := by
    intro kind hk
    rw [hget, if_neg fun hb => hk hb.1]
  have htotal : significant = tokens.countP fun token => token.value.kind ≠ .blank := by
    rw [h.significant_eq] at hs
    exact (Except.ok.inj hs).symm
  have hrising : Kind.all.Pairwise fun a b => a.compare b = .lt := by decide
  refine ⟨(List.pairwise_map.2 hrising).filter _, fun kind count => Table.mem_kinds_ofMetrics, ?_, htotal, ?_, ?_, ?_, ?_⟩
  · intro kind count hm
    obtain ⟨rfl, hpos⟩ := Table.mem_kinds_ofMetrics.1 hm
    rw [hget] at hpos ⊢
    split at hpos
    · cases hpos
    · rename_i hk
      rw [if_neg hk]
  · rw [Table.sumOf_ofMetrics fun kind hk => htallied kind (of_decide_eq_true hk)]
    exact htotal.symm
  · simp only [Table.mem_kinds_ofMetrics, exists_eq_left, hget]
    cases settings.countBlanks with
    | false => simp
    | true => simp [List.countP_pos_iff]
  · have hsome : (Table.ofMetrics metrics significant).signals.isSome ↔ 0 < metrics.signals := by
      unfold Table.ofMetrics
      split <;> simp_all
    rw [hsome, h.signals_eq, List.countP_pos_iff]
    simp only [Kind.isSignal_eq]
  · intro count hcount
    have hsignals : metrics.signals = count := by
      unfold Table.ofMetrics at hcount
      split at hcount
      · exact Option.some.inj hcount
      · cases hcount
    rw [← hsignals, h.signals_eq, Table.sumOf_ofMetrics]
    intro kind hk
    refine htallied kind ?_
    rintro rfl
    exact absurd hk (by decide)

end Agreement

end Listing

end Lexing
