import Lexing.Proofs.Lemmas.JsonReading
import Lexing.Proofs.Lemmas.Layout
import Lexing.Proofs.Lemmas.Listing
import Mathlib.Data.List.DropRight

/-!
# Reading listings

Readers of listings, for which no token stands but only what its line shows. `readPlain?` takes a listing for a person apart at its
line feeds, and each line at the first mark between text and kind. Neither of the two is quoted, and naming the blank characters
does not keep texts apart that hold backslashes. What makes a line readable is that a text from a scan is all blank or has nothing
blank in it, as its kind says (`TrueToKind`): then no line holds a second line feed, no mark starts in a text, and a blank run has
no backslash of its own (`readLine?_plainLine`). `readEntries?` reads each line of the other format as a JSON object and looks up its
fields by name (`readObject?_render`).
-/

namespace Lexing

/-! ## Lines of a text -/

namespace Text

/-- The lines of a text, without the line feeds behind them. The last line must have one, too. -/
def lines? (text : String) : Option (List (List Char)) :=
  let parts := text.toList.splitOn '\n'
  if parts.getLast? = some [] then some parts.dropLast else none

/-- Lines with a line feed behind each are parted by line feeds, when an empty line is put behind them. -/
theorem flatMap_eq_intercalate (lines : List (List Char)) :
    lines.flatMap (· ++ ['\n']) = ['\n'].intercalate (lines ++ [[]]) := by
  induction lines with
  | nil => rfl
  | cons line rest ih =>
    obtain ⟨next, more, hnext⟩ := List.exists_cons_of_ne_nil (List.concat_ne_nil ([] : List Char) rest)
    rw [List.flatMap_cons, ih, List.cons_append, hnext, List.intercalate_cons_cons]

/-- Lines that have no line feed of their own are the lines of the text they make up. -/
theorem lines?_eq {text : String} {lines : List (List Char)} (htext : text.toList = lines.flatMap (· ++ ['\n']))
    (h : ∀ line ∈ lines, '\n' ∉ line) : lines? text = some lines := by
  have hparts : ∀ line ∈ lines ++ [[]], '\n' ∉ line := by
    intro line hl
    rcases List.mem_append.1 hl with hl | hl
    · exact h line hl
    · simp [List.mem_singleton.1 hl]
  have hsplit : text.toList.splitOn '\n' = lines ++ [[]] := by
    rw [htext, flatMap_eq_intercalate]
    exact List.splitOn_intercalate '\n' hparts (by simp)
  simp [lines?, hsplit]

/-- Such a text has a line feed for each line. -/
theorem count_lineFeed {lines : List (List Char)} (h : ∀ line ∈ lines, '\n' ∉ line) :
    (lines.flatMap (· ++ ['\n'])).count '\n' = lines.length := by
  induction lines with
  | nil => rfl
  | cons line rest ih =>
    have hline := List.count_eq_zero.2 (h line List.mem_cons_self)
    have hrest := ih fun other ho => h other (List.mem_cons_of_mem line ho)
    rw [List.flatMap_cons, List.count_append, List.count_append, hline, hrest, List.length_cons]
    simp
    omega

end Text

/-- The kind of a name, if it is one. -/
def Kind.ofName? (name : String) : Option Kind := Kind.all.find? fun kind => kind.name = name

theorem Kind.ofName?_name (kind : Kind) : Kind.ofName? kind.name = some kind := by
  cases kind <;> decide

/-- A token's text is all blank or has nothing blank in it, as its kind says. -/
def Token.TrueToKind (token : Token) : Prop := ∀ c ∈ token.text.toList, CharClass.isBlank c = token.kind.isBlank

/-- The tokens of a text are true to their kinds. -/
theorem Segmentation.trueToKind_tokensFrom (p : Position) (cs : List Char) :
    ∀ token ∈ tokensFrom p (pieces cs), token.value.TrueToKind := by
  intro token h c hc
  obtain ⟨piece, hp, q, rfl⟩ := exists_of_mem_tokensFrom h
  have hkind := isBlank_kindOf (ne_nil_of_mem_pieces hp)
  simp only [located, String.toList_ofList] at hc ⊢
  rw [hkind]
  cases hall : piece.all CharClass.isBlank with
  | true => exact List.all_eq_true.1 hall c hc
  | false =>
    have hword : IsWord piece := isWord_of_mem_words (List.mem_filter.2 ⟨hp, by simp [hall]⟩)
    exact hword.not_isBlank hc

namespace Listing

open CharClass

variable {settings : ListingSettings}

/-! ## Lines of a listing -/

/-- A line without its end. -/
def lineText (settings : ListingSettings) (token : Located Token) : String :=
  match settings.format with
  | .plain => plainLine settings.positions token
  | .json => (toJson token).render

theorem line_eq (settings : ListingSettings) (token : Located Token) :
    line settings token = lineText settings token ++ "\n" := by
  unfold line lineText
  cases settings.format <;> rfl

/-- A listing is a line for each token that is shown, with a line feed behind it. -/
theorem toList_lines (settings : ListingSettings) (tokens : List (Located Token)) :
    (lines settings tokens).toList =
      ((tokens.filter (shows settings)).map fun token => (lineText settings token).toList).flatMap (· ++ ['\n']) := by
  simp [lines, String.toList_join, List.flatMap_map, line_eq]

/-- The tokens that are shown are all of them, or those that are not blank runs. -/
theorem filter_shows (settings : ListingSettings) (tokens : List (Located Token)) :
    tokens.filter (shows settings) = if settings.blanks then tokens else TokenSequence.significant ⟨tokens⟩ := by
  have hshows : shows settings = fun token => !token.value.kind.isBlank || settings.blanks := rfl
  rw [hshows]
  cases settings.blanks <;> simp [TokenSequence.significant]

theorem lineFeed_not_mem_escapeBlankChar (c : Char) : '\n' ∉ escapeBlankChar c := by
  unfold escapeBlankChar
  split
  · decide
  · rename_i hfeed
    repeat' split
    any_goals decide
    simpa [eq_comm] using hfeed

theorem lineFeed_not_mem_name (kind : Kind) : '\n' ∉ kind.name.toList := by
  cases kind <;> decide

theorem lineFeed_not_mem_toDigits (n : Nat) : '\n' ∉ Nat.toDigits 10 n := by
  intro h
  exact absurd (Nat.isDigit_of_mem_toDigits (by omega) (by omega) h) (by decide)

/-- A token is shown without a line feed. -/
theorem lineFeed_not_mem_shownText {token : Token} (h : token.TrueToKind) : '\n' ∉ (shownText token).toList := by
  unfold shownText
  split
  · rw [escapeBlank, String.toList_ofList, List.mem_flatMap]
    rintro ⟨c, -, hc⟩
    exact lineFeed_not_mem_escapeBlankChar c hc
  · rename_i hkind
    intro hc
    have hblank := h '\n' hc
    have hfeed : isBlank '\n' = true := by decide
    rw [hfeed] at hblank
    exact hkind (by cases hk : token.kind <;> simp_all [Kind.isBlank])

/-- What stands in front of a text. -/
def opening : List Char := "Token: ".toList

/-- What stands between text and kind. -/
def mark : List Char := " - Type: ".toList

/-- The place at the end of a line for a person, if there is one. -/
def placeChars (positions : Bool) (p : Position) : List Char :=
  if positions then ' ' :: '(' :: Nat.toDigits 10 p.line ++ ':' :: Nat.toDigits 10 p.column ++ [')'] else []

theorem toList_plainLine (positions : Bool) (token : Located Token) :
    (plainLine positions token).toList = opening ++ ((shownText token.value).toList ++ mark ++
      (token.value.kind.name.toList ++ placeChars positions token.span.start)) := by
  have hstring : ∀ s : String, toString s = s := fun _ => rfl
  unfold plainLine placeChars opening mark
  cases positions with
  | false => simp [hstring]
  | true => simp [hstring, Position.render, Nat.repr_eq_ofList_toDigits]

/-- No line has a line feed but the one behind it. -/
theorem lineFeed_not_mem_lineText {token : Located Token} (h : token.value.TrueToKind) :
    '\n' ∉ (lineText settings token).toList := by
  unfold lineText
  cases settings.format with
  | plain =>
    have hplace : '\n' ∉ placeChars settings.positions token.span.start := by
      unfold placeChars
      split
      · simp [lineFeed_not_mem_toDigits]
      · simp
    have hopening : '\n' ∉ opening := by decide
    have hmark : '\n' ∉ mark := by decide
    simp [toList_plainLine, hopening, hmark, lineFeed_not_mem_shownText h, lineFeed_not_mem_name, hplace]
  | json =>
    intro hc
    exact absurd (Json.printable_of_mem_render _ hc) (by decide)

/-- The lines of a listing are the lines of its tokens. -/
theorem lines?_lines (settings : ListingSettings) {tokens : List (Located Token)} (h : ∀ token ∈ tokens, token.value.TrueToKind) :
    Text.lines? (lines settings tokens) =
      some ((tokens.filter (shows settings)).map fun token => (lineText settings token).toList) := by
  refine Text.lines?_eq (toList_lines settings tokens) ?_
  intro line hl
  obtain ⟨token, ht, rfl⟩ := List.mem_map.1 hl
  exact lineFeed_not_mem_lineText (h token (List.mem_filter.1 ht).1)

/-- A listing has a line feed for each token that is shown. -/
theorem count_lineFeed_lines (settings : ListingSettings) {tokens : List (Located Token)} (h : ∀ token ∈ tokens, token.value.TrueToKind) :
    (lines settings tokens).toList.count '\n' = (tokens.filter (shows settings)).length := by
  rw [toList_lines, Text.count_lineFeed, List.length_map]
  intro line hl
  obtain ⟨token, ht, rfl⟩ := List.mem_map.1 hl
  exact lineFeed_not_mem_lineText (h token (List.mem_filter.1 ht).1)

/-! ## Lines for a person -/

/-- The characters in front of the first mark, and those behind it. -/
def cut? : List Char → Option (List Char × List Char)
  | [] => none
  | c :: rest =>
    match mark.isPrefixOf? (c :: rest) with
    | some behind => some ([], behind)
    | none => (cut? rest).map fun (front, behind) => (c :: front, behind)

/-- A text in which blank characters are named, with the characters themselves. -/
def unescapeBlank : List Char → List Char
  | '\\' :: 'n' :: rest => '\n' :: unescapeBlank rest
  | '\\' :: 't' :: rest => '\t' :: unescapeBlank rest
  | '\\' :: 'r' :: rest => '\r' :: unescapeBlank rest
  | '\\' :: 'v' :: rest => '\x0b' :: unescapeBlank rest
  | '\\' :: 'f' :: rest => '\x0c' :: unescapeBlank rest
  | c :: rest => c :: unescapeBlank rest
  | [] => []

/-- The name of a kind in front of a place, or at the end. -/
def nameChars (cs : List Char) : List Char := (cs.takeWhile (· ≠ '(')).rdropWhile (· = ' ')

/-- The text and the kind of the token that a line shows. -/
def readLine? (line : List Char) : Option (String × Kind) := do
  let rest ← opening.isPrefixOf? line
  let (text, rest) ← cut? rest
  let kind ← Kind.ofName? (String.ofList (nameChars rest))
  return (String.ofList (if kind = .blank then unescapeBlank text else text), kind)

/-- The texts and kinds of the tokens that a listing shows, line by line. -/
def readPlain? (text : String) : Option (List (String × Kind)) := do
  let lines ← Text.lines? text
  lines.mapM readLine?

/-- The first mark is the one behind the text, when no space or no minus sign stands in the text: a mark starts with both. -/
theorem cut?_append {text : List Char} (h : ' ' ∉ text ∨ '-' ∉ text) (rest : List Char) :
    cut? (text ++ mark ++ rest) = some (text, rest) := by
  induction text with
  | nil => rfl
  | cons c text ih =>
    have htail : ' ' ∉ text ∨ '-' ∉ text := h.imp (fun h hm => h (List.mem_cons_of_mem c hm)) fun h hm =>
      h (List.mem_cons_of_mem c hm)
    have hnone : mark.isPrefixOf? (c :: (text ++ mark ++ rest)) = none := by
      rw [Option.eq_none_iff_forall_ne_some]
      intro behind hsome
      have happend := List.isPrefixOf?_eq_some_iff_append_eq.1 hsome
      obtain ⟨hc, hbehind⟩ := List.cons.inj happend
      -- The second character of the mark would be in the text, or else be the space that the mark behind the text starts with.
      cases text with
      | nil => cases (List.cons.inj hbehind).1
      | cons d text =>
        obtain ⟨hd, -⟩ := List.cons.inj hbehind
        rcases h with h | h
        · exact h (hc ▸ List.mem_cons_self)
        · exact h (List.mem_cons_of_mem c (hd ▸ List.mem_cons_self))
    rw [List.cons_append, List.cons_append, cut?, hnone]
    simp only [ih htail, Option.map_some]

/-- Named blank characters are found again, when the text has no backslash of its own. -/
theorem unescapeBlank_escape {cs : List Char} (h : ∀ c ∈ cs, isBlank c) :
    unescapeBlank (cs.flatMap escapeBlankChar) = cs := by
  induction cs with
  | nil => rfl
  | cons c cs ih =>
    have hrest := ih fun d hd => h d (List.mem_cons_of_mem c hd)
    have hc := h c List.mem_cons_self
    simp only [isBlank, blanks, List.contains_eq_mem, List.mem_cons, List.not_mem_nil, or_false, decide_eq_true_eq] at hc
    rw [List.flatMap_cons]
    rcases hc with rfl | rfl | rfl | rfl | rfl | rfl <;> simp [escapeBlankChar, unescapeBlank, hrest]

/-- A blank character is shown without a minus sign. -/
theorem minus_not_mem_escapeBlankChar {c : Char} (h : isBlank c) : '-' ∉ escapeBlankChar c := by
  simp only [isBlank, blanks, List.contains_eq_mem, List.mem_cons, List.not_mem_nil, or_false, decide_eq_true_eq] at h
  rcases h with rfl | rfl | rfl | rfl | rfl | rfl <;> decide

/-- No mark starts in a text that is shown. -/
theorem not_mem_shownText {token : Token} (h : token.TrueToKind) :
    ' ' ∉ (shownText token).toList ∨ '-' ∉ (shownText token).toList := by
  unfold shownText
  split
  · rename_i hkind
    right
    rw [escapeBlank, String.toList_ofList, List.mem_flatMap]
    rintro ⟨c, hc, hminus⟩
    have hblank := h c hc
    rw [hkind] at hblank
    exact minus_not_mem_escapeBlankChar hblank hminus
  · rename_i hkind
    left
    intro hspace
    have hblank := h ' ' hspace
    have htrue : isBlank ' ' = true := by decide
    rw [htrue] at hblank
    exact hkind (by cases hk : token.kind <;> simp_all [Kind.isBlank])

/-- The name of a kind is found again in front of a place. -/
theorem nameChars_append (kind : Kind) (positions : Bool) (p : Position) :
    nameChars (kind.name.toList ++ placeChars positions p) = kind.name.toList := by
  have hname : (kind.name.toList.all (· ≠ '(')) = true := by
    cases kind <;> decide
  have hplace : (placeChars positions p).takeWhile (· ≠ '(') = if positions then [' '] else [] := by
    cases positions <;> simp [placeChars]
  unfold nameChars
  rw [List.takeWhile_append_of_pos (List.all_eq_true.1 hname), hplace]
  cases kind <;> cases positions <;> decide

/-- A line for a person can be read: it gives back the text and the kind of the token. -/
theorem readLine?_plainLine (positions : Bool) {token : Located Token} (h : token.value.TrueToKind) :
    readLine? (plainLine positions token).toList = some (token.value.text, token.value.kind) := by
  have hcut := cut?_append (not_mem_shownText h)
    (token.value.kind.name.toList ++ placeChars positions token.span.start)
  have hopening : opening.isPrefixOf? (plainLine positions token).toList =
      some ((shownText token.value).toList ++ mark ++
        (token.value.kind.name.toList ++ placeChars positions token.span.start)) :=
    List.isPrefixOf?_eq_some_iff_append_eq.2 (toList_plainLine positions token).symm
  have htext : (if token.value.kind = .blank then unescapeBlank (shownText token.value).toList
      else (shownText token.value).toList) = token.value.text.toList := by
    unfold shownText
    split
    · rename_i hkind
      rw [escapeBlank, String.toList_ofList]
      refine unescapeBlank_escape ?_
      intro c hc
      rw [h c hc, hkind]
      rfl
    · rfl
  unfold readLine?
  simp only [hopening, Option.bind_eq_bind, Option.bind_some, hcut, nameChars_append, String.ofList_toList,
    Kind.ofName?_name, htext, Option.pure_def]

/-- Items that are each read back from what is written for them are read back in order. -/
theorem mapM_map_eq_some {α β γ : Type} {read : α → Option β} {write : γ → α} {value : γ → β} (items : List γ)
    (h : ∀ item ∈ items, read (write item) = some (value item)) : (items.map write).mapM read = some (items.map value) := by
  induction items with
  | nil => rfl
  | cons item rest ih =>
    have hrest := ih fun other ho => h other (List.mem_cons_of_mem item ho)
    simp [h item List.mem_cons_self, hrest]

/-- A listing for a person can be read: it gives back the texts and kinds of the tokens that are shown. -/
theorem readPlain?_lines (blanks positions summary : Bool) {tokens : List (Located Token)}
    (h : ∀ token ∈ tokens, token.value.TrueToKind) :
    readPlain? (lines ⟨.plain, blanks, positions, summary⟩ tokens) =
      some (TokenSequence.pairs ⟨tokens.filter (shows ⟨.plain, blanks, positions, summary⟩)⟩) := by
  unfold readPlain?
  rw [lines?_lines _ h]
  refine mapM_map_eq_some _ ?_
  intro token ht
  exact readLine?_plainLine positions (h token (List.mem_filter.1 ht).1)

/-! ## Lines of JSON -/

/-- What a line of JSON says of a token. -/
structure Entry where
  text : String
  /-- The name of the kind. -/
  kind : String
  line : Nat
  column : Nat
  offset : Nat
deriving DecidableEq, Repr

/-- The entry of a token. -/
def Entry.ofToken (token : Located Token) : Entry :=
  ⟨token.value.text, token.value.kind.name, token.span.start.line, token.span.start.column, token.span.start.offset⟩

/-- The text under a name in an object, if there is one. -/
def textAt? (name : String) : Json → Option String
  | .object fields =>
    match fields.lookup name with
    | some (.text found) => some found
    | _ => none
  | _ => none

/-- The count under a name in an object, if there is one. -/
def countAt? (name : String) : Json → Option Nat
  | .object fields =>
    match fields.lookup name with
    | some (.count found) => some found
    | _ => none
  | _ => none

/-- The entry of a JSON object, whatever the order of its fields. -/
def entryOf? (object : Json) : Option Entry := do
  let text ← textAt? "text" object
  let kind ← textAt? "type" object
  let line ← countAt? "line" object
  let column ← countAt? "column" object
  let offset ← countAt? "offset" object
  return ⟨text, kind, line, column, offset⟩

/-- The entry that a line holds. -/
def readObject? (line : List Char) : Option Entry := (Json.parse? line).bind entryOf?

/-- The entries that a listing holds, line by line. -/
def readEntries? (text : String) : Option (List Entry) := do
  let lines ← Text.lines? text
  lines.mapM readObject?

/-- The object of a token holds its entry. -/
theorem entryOf?_toJson (token : Located Token) : entryOf? (toJson token) = some (.ofToken token) := rfl

/-- A line of JSON can be read: it gives back text, kind and place of the token. -/
theorem readObject?_render (token : Located Token) :
    readObject? (toJson token).render.toList = some (.ofToken token) := by
  rw [readObject?, Json.parse?_render, Option.bind_some, entryOf?_toJson]

/-- A listing of JSON can be read: it gives back the entries of the tokens that are shown. -/
theorem readEntries?_lines (blanks positions summary : Bool) {tokens : List (Located Token)}
    (h : ∀ token ∈ tokens, token.value.TrueToKind) :
    readEntries? (lines ⟨.json, blanks, positions, summary⟩ tokens) =
      some ((tokens.filter (shows ⟨.json, blanks, positions, summary⟩)).map .ofToken) := by
  unfold readEntries?
  rw [lines?_lines _ h]
  exact mapM_map_eq_some _ fun token _ => readObject?_render token

end Listing

end Lexing
