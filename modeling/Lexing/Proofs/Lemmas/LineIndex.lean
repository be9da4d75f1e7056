import Lexing.Source.LineIndex
import Lexing.Proofs.Lemmas.Position
import Lexing.Proofs.Lemmas.Slice

/-!
# The line index

A text in front of a place is whole lines and then the part of one more line (`exists_lines`). The index finds the start of
that line, since it counts the line feeds in front of the place, and walks on from there; so at every boundary it names the
same place as a walk from the start of the text (`positionAt_eq`). Around a boundary the line is the part in front of it and
the part up to the next line feed, from which excerpts are taken (`excerpt_eq`).
-/

namespace Lexing

namespace Position

theorem line_after (p : Position) (c : Char) : (p.after c).line = p.line + if c = '\n' then 1 else 0 := by
  unfold after
  split
  · rfl
  · split <;> rfl

/-- Only line feeds lead to another line. -/
theorem line_behind (p : Position) (cs : List Char) : (p.behind cs).line = p.line + cs.count '\n' := by
  induction cs generalizing p with
  | nil => rfl
  | cons c cs ih =>
    rw [behind_cons, ih, line_after, List.count_cons]
    by_cases hc : c = '\n'
    · simp only [hc, if_true, beq_self_eq_true]
      omega
    · simp [hc]

end Position

namespace LineIndex

/-! ## Starts of lines -/

/-- The starts of the lines behind the line feeds of some characters, the first of which lies at an offset. -/
def startsFrom (offset : Nat) : List Char → List Nat
  | [] => []
  | c :: cs =>
    let next := offset + c.utf8Size
    if c = '\n' then next :: startsFrom next cs else startsFrom next cs

theorem foldl_walk (cs : List Char) (offset : Nat) (starts : Array Nat) :
    cs.foldl walk (offset, starts) = (offset + String.utf8Len cs, starts ++ (startsFrom offset cs).toArray) := by
  induction cs generalizing offset starts with
  | nil => simp [startsFrom]
  | cons c cs ih =>
    have hw : walk (offset, starts) c =
        (offset + c.utf8Size, if c = '\n' then starts.push (offset + c.utf8Size) else starts) := rfl
    have ho : offset + c.utf8Size + String.utf8Len cs = offset + String.utf8Len (c :: cs) := by
      rw [String.utf8Len_cons]
      omega
    rw [List.foldl_cons, hw, ih, ho, startsFrom]
    by_cases hc : c = '\n' <;> simp [hc]

/-- The index starts with the first line and then holds a start behind each line feed. -/
theorem starts_ofText (text : String) : (ofText text).starts = (0 :: startsFrom 0 text.toList).toArray := by
  rw [ofText, String.foldl_eq_foldl_toList, foldl_walk]
  simp

theorem startsFrom_append (offset : Nat) (front back : List Char) :
    startsFrom offset (front ++ back) = startsFrom offset front ++ startsFrom (offset + String.utf8Len front) back := by
  induction front generalizing offset with
  | nil => rfl
  | cons c front ih =>
    have ho : offset + c.utf8Size + String.utf8Len front = offset + String.utf8Len (c :: front) := by
      rw [String.utf8Len_cons]
      omega
    rw [List.cons_append, startsFrom, startsFrom, ih, ho]
    by_cases hc : c = '\n' <;> simp [hc]

theorem length_startsFrom (offset : Nat) (cs : List Char) : (startsFrom offset cs).length = cs.count '\n' := by
  induction cs generalizing offset with
  | nil => rfl
  | cons c cs ih =>
    rw [startsFrom, List.count_cons]
    by_cases hc : c = '\n' <;> simp [hc, ih]

theorem startsFrom_eq_nil {cs : List Char} (h : '\n' ∉ cs) (offset : Nat) : startsFrom offset cs = [] := by
  rw [← List.length_eq_zero_iff, length_startsFrom]
  exact List.count_eq_zero.2 h

/-- Each start lies behind a line feed of the characters. -/
theorem bounds_of_mem_startsFrom {offset start : Nat} {cs : List Char} (h : start ∈ startsFrom offset cs) :
    offset < start ∧ start ≤ offset + String.utf8Len cs := by
  induction cs generalizing offset with
  | nil => exact absurd h List.not_mem_nil
  | cons c cs ih =>
    have hc := c.utf8Size_pos
    rw [String.utf8Len_cons]
    rw [startsFrom] at h
    split at h
    · rcases List.mem_cons.1 h with rfl | h
      · omega
      · have := ih h
        omega
    · have := ih h
      omega

/-! ## Whole lines -/

/-- Characters that are whole lines: none, or some that end with a line feed. -/
def IsLines (cs : List Char) : Prop := cs = [] ∨ ∃ front, cs = front ++ ['\n']

/-- Characters are whole lines and then the part of one more line. -/
theorem exists_lines (cs : List Char) : ∃ lines part, cs = lines ++ part ∧ IsLines lines ∧ '\n' ∉ part := by
  induction cs using List.reverseRecOn with
  | nil => exact ⟨[], [], rfl, Or.inl rfl, List.not_mem_nil⟩
  | append_singleton cs c ih =>
    by_cases hc : c = '\n'
    · subst hc
      exact ⟨cs ++ ['\n'], [], (List.append_nil _).symm, Or.inr ⟨cs, rfl⟩, List.not_mem_nil⟩
    · obtain ⟨lines, part, rfl, hl, hp⟩ := ih
      refine ⟨lines, part ++ [c], by rw [List.append_assoc], hl, ?_⟩
      rw [List.mem_append, List.mem_singleton]
      rintro (h | h)
      · exact hp h
      · exact hc h.symm

/-- The line behind whole lines starts where they end. -/
theorem getElem?_starts {lines : List Char} (h : IsLines lines) (rest : List Nat) :
    (0 :: startsFrom 0 lines ++ rest)[lines.count '\n']? = some (String.utf8Len lines) := by
  rcases h with rfl | ⟨front, rfl⟩
  · rfl
  · have hlen := length_startsFrom 0 front
    have hcount : (front ++ ['\n']).count '\n' = (startsFrom 0 front).length + 1 := by
      rw [List.count_append, hlen]
      rfl
    rw [hcount, startsFrom_append]
    simp [startsFrom]

/-- A walk over whole lines ends at the first column. -/
theorem behind_lines {lines : List Char} (h : IsLines lines) :
    Position.start.behind lines = ⟨String.utf8Len lines, lines.count '\n' + 1, 1⟩ := by
  have hoff := Position.offset_behind .start lines
  have hline := Position.line_behind .start lines
  have hcol : (Position.start.behind lines).column = 1 := by
    rcases h with rfl | ⟨front, rfl⟩
    · rfl
    · rw [Position.behind_append]
      rfl
  have heta : Position.start.behind lines =
      ⟨(Position.start.behind lines).offset, (Position.start.behind lines).line, (Position.start.behind lines).column⟩ :=
    rfl
  rw [heta, hoff, hline, hcol, Position.start, Nat.zero_add, Nat.add_comm 1]

/-! ## Places of offsets -/

variable {text : String} {front back : List Char}

theorem utf8ByteSize_eq (ht : text.toList = front ++ back) :
    text.utf8ByteSize = String.utf8Len front + String.utf8Len back := by
  rw [← String.utf8Len_toList, ht, String.utf8Len_append]

/-- The index counts the line feeds in front of an offset. -/
theorem lineOf_eq (ht : text.toList = front ++ back) :
    (ofText text).lineOf (String.utf8Len front) = front.count '\n' := by
  have hfront : (startsFrom 0 front).countP (· ≤ String.utf8Len front) = front.count '\n' := by
    rw [← length_startsFrom 0 front, List.countP_eq_length]
    intro start hs
    have := bounds_of_mem_startsFrom hs
    rw [decide_eq_true_eq]
    omega
  have hback : (startsFrom (0 + String.utf8Len front) back).countP (· ≤ String.utf8Len front) = 0 := by
    rw [List.countP_eq_zero]
    intro start hs
    have := bounds_of_mem_startsFrom hs
    rw [decide_eq_true_eq]
    omega
  rw [lineOf, starts_ofText, ht, startsFrom_append, List.countP_toArray, List.countP_cons, List.countP_append, hfront,
    hback]
  simp

/-- At a boundary the index names the place that a walk from the start of the text leads to. -/
theorem positionAt_eq (ht : text.toList = front ++ back) (hb : text.utf8ByteSize < sizeBound) :
    (ofText text).positionAt (String.utf8Len front) = .ok (Position.start.behind front) := by
  obtain ⟨lines, part, rfl, hl, hp⟩ := exists_lines front
  have hsize := utf8ByteSize_eq ht
  have hmin : min (String.utf8Len (lines ++ part)) text.utf8ByteSize = String.utf8Len (lines ++ part) := by omega
  have hcount : (lines ++ part).count '\n' = lines.count '\n' := by
    rw [List.count_append, List.count_eq_zero.2 hp, Nat.add_zero]
  have hline : (ofText text).lineOf (String.utf8Len (lines ++ part)) = lines.count '\n' := by
    rw [lineOf_eq ht, hcount]
  have hstart : (ofText text).starts.getD (lines.count '\n') 0 = String.utf8Len lines := by
    rw [starts_ofText, ht, List.append_assoc, startsFrom_append, ← List.cons_append, Array.getD_eq_getD_getElem?,
      List.getElem?_toArray, getElem?_starts hl]
    rfl
  have hslice : Text.slice text (String.utf8Len lines) (String.utf8Len (lines ++ part)) = .ok (String.ofList part) := by
    rw [String.utf8Len_append]
    exact Text.slice_eq ht
  have hreg := Position.regular_start.behind lines
  have hadvance : Position.advanceText ⟨String.utf8Len lines, lines.count '\n' + 1, 1⟩ (String.ofList part) =
      .ok (Position.start.behind (lines ++ part)) := by
    rw [Position.advanceText, String.toList_ofList, ← behind_lines hl, Position.behind_append]
    apply hreg.advanceChars_eq
    rw [← Position.behind_append, Position.offset_start_behind]
    omega
  have htext : (ofText text).text = text := rfl
  simp only [positionAt, htext, hmin, hline, hstart, hslice, bind, Except.bind, hadvance]

/-- An offset past the end counts as the end. -/
theorem positionAt_of_size_le {offset : Nat} (h : text.utf8ByteSize ≤ offset) :
    (ofText text).positionAt offset = (ofText text).positionAt text.utf8ByteSize := by
  have hmin : min offset (ofText text).text.utf8ByteSize = min text.utf8ByteSize (ofText text).text.utf8ByteSize := by
    show min offset text.utf8ByteSize = min text.utf8ByteSize text.utf8ByteSize
    omega
  simp only [positionAt, hmin]

/-- So an offset may be cut off at the end first. -/
theorem positionAt_min (text : String) (offset : Nat) :
    (ofText text).positionAt offset = (ofText text).positionAt (min offset text.utf8ByteSize) := by
  rcases Nat.le_total offset text.utf8ByteSize with hle | hge
  · rw [Nat.min_eq_left hle]
  · rw [Nat.min_eq_right hge, positionAt_of_size_le hge]

/-! ## Excerpts -/

/-- The line around a boundary: the part in front of it and the part up to the next line feed, without the carriage returns at
the end. -/
theorem lineText_eq {lines part more tail : List Char} (ht : text.toList = lines ++ (part ++ more) ++ tail)
    (hl : IsLines lines) (hp : '\n' ∉ part ++ more) (htail : tail = [] ∨ ∃ rest, tail = '\n' :: rest) :
    (ofText text).lineText (lines.count '\n' + 1) =
      .ok (some (Text.dropTrailing (· = '\r') (String.ofList (part ++ more)))) := by
  have hstarts : (ofText text).starts.toList =
      0 :: startsFrom 0 lines ++ startsFrom (String.utf8Len lines + String.utf8Len (part ++ more)) tail := by
    rw [starts_ofText, ht, startsFrom_append, startsFrom_append, startsFrom_eq_nil hp, List.append_nil,
      String.utf8Len_append, Nat.zero_add]
    rfl
  have hstart : (ofText text).starts[lines.count '\n']? = some (String.utf8Len lines) := by
    rw [← Array.getElem?_toList, hstarts, getElem?_starts hl]
  have hnext : (ofText text).starts[lines.count '\n' + 1]? =
      (startsFrom (String.utf8Len lines + String.utf8Len (part ++ more)) tail)[0]? := by
    have hlen : (0 :: startsFrom 0 lines).length = lines.count '\n' + 1 := by
      rw [List.length_cons, length_startsFrom]
    rw [← Array.getElem?_toList, hstarts, List.getElem?_append_right (by omega), hlen, Nat.sub_self]
  have hslice : Text.slice (ofText text).text (String.utf8Len lines)
      (String.utf8Len lines + String.utf8Len (part ++ more)) = .ok (String.ofList (part ++ more)) := Text.slice_eq ht
  rw [lineText, if_neg (Nat.succ_ne_zero _), Nat.add_sub_cancel, hstart, hnext]
  rcases htail with rfl | ⟨rest, rfl⟩
  · have hend : (ofText text).text.utf8ByteSize = String.utf8Len lines + String.utf8Len (part ++ more) := by
      have hsize := utf8ByteSize_eq ht
      rwa [String.utf8Len_nil, Nat.add_zero, String.utf8Len_append] at hsize
    simp only [startsFrom, List.getElem?_nil, hend, hslice]
  · have hfeed : Char.utf8Size '\n' = 1 := rfl
    simp only [startsFrom, if_true, hfeed, List.getElem?_cons_zero, Nat.add_sub_cancel, hslice]

/-- What is left of a line behind a place in it, when carriage returns at its end are dropped: what is left of the part
behind the place. -/
theorem slice_dropTrailing (test : Char → Bool) (part more : List Char) :
    Text.slice (Text.dropTrailing test (String.ofList (part ++ more)))
        (min (String.utf8Len part) (Text.dropTrailing test (String.ofList (part ++ more))).utf8ByteSize)
        (Text.dropTrailing test (String.ofList (part ++ more))).utf8ByteSize =
      .ok (Text.dropTrailing test (String.ofList more)) := by
  have hmore : Text.dropTrailing test (String.ofList more) = String.ofList (more.rdropWhile test) := by
    rw [← String.toList_inj, Text.toList_dropTrailing, String.toList_ofList, String.toList_ofList]
  have hline := Text.toList_dropTrailing test (String.ofList (part ++ more))
  rw [String.toList_ofList, Text.rdropWhile_append] at hline
  rw [hmore]
  by_cases hnone : more.rdropWhile test = []
  · -- The place lies in or behind what was dropped, so the slice is the empty one at the end.
    rw [if_pos hnone] at hline
    have hsize := utf8ByteSize_eq (hline.trans (List.append_nil _).symm)
    obtain ⟨dropped, hd⟩ := List.rdropWhile_prefix test (l := part)
    have hle : String.utf8Len (part.rdropWhile test) ≤ String.utf8Len part := by
      conv_rhs => rw [← hd, String.utf8Len_append]
      exact Nat.le_add_right _ _
    have hempty : (Text.dropTrailing test (String.ofList (part ++ more))).toList = part.rdropWhile test ++ [] ++ [] := by
      rw [hline, List.append_nil, List.append_nil]
    rw [hsize, String.utf8Len_nil, Nat.add_zero, Nat.min_eq_right hle, hnone]
    exact Text.slice_eq hempty
  · rw [if_neg hnone] at hline
    have hsize := utf8ByteSize_eq hline
    rw [hsize, Nat.min_eq_left (Nat.le_add_right _ _)]
    exact Text.slice_eq (hline.trans (List.append_nil _).symm)

/-- An excerpt at a boundary starts with the character there and stays in its line. -/
theorem excerpt_eq {lines part more tail : List Char} (ht : text.toList = lines ++ (part ++ more) ++ tail)
    (hl : IsLines lines) (hp : '\n' ∉ part ++ more) (htail : tail = [] ∨ ∃ rest, tail = '\n' :: rest)
    (hb : text.utf8ByteSize < sizeBound) (count : Nat) :
    (ofText text).excerpt (String.utf8Len (lines ++ part)) count =
      .ok (Text.takeChars count (Text.dropTrailing (· = '\r') (String.ofList more))) := by
  have hplace : (ofText text).positionAt (String.utf8Len (lines ++ part)) =
      .ok (Position.start.behind (lines ++ part)) := by
    have hsplit : text.toList = (lines ++ part) ++ (more ++ tail) := by
      rw [ht]
      simp only [List.append_assoc]
    exact positionAt_eq hsplit hb
  have hoffset : (Position.start.behind (lines ++ part)).offset = String.utf8Len lines + String.utf8Len part := by
    rw [Position.offset_start_behind, String.utf8Len_append]
  have hline : (Position.start.behind (lines ++ part)).line = lines.count '\n' + 1 := by
    have hnone : part.count '\n' = 0 := List.count_eq_zero.2 fun h => hp (List.mem_append_left more h)
    rw [Position.line_behind, List.count_append, hnone, Nat.add_zero]
    exact Nat.add_comm 1 _
  have hstart : (ofText text).starts[lines.count '\n']? = some (String.utf8Len lines) := by
    rw [starts_ofText, ht, List.append_assoc, startsFrom_append, ← List.cons_append, List.getElem?_toArray,
      getElem?_starts hl]
  simp only [excerpt, hplace, bind, Except.bind, hline, lineText_eq ht hl hp htail, Nat.add_sub_cancel, hstart, hoffset,
    Nat.add_sub_cancel_left, slice_dropTrailing, pure, Except.pure]

/-- Every boundary lies in one line: whole lines in front of it, the part of its line on either side, and what follows. -/
theorem exists_line (front back : List Char) :
    ∃ lines part more tail, front = lines ++ part ∧ back = more ++ tail ∧ IsLines lines ∧ '\n' ∉ part ++ more ∧
      (tail = [] ∨ ∃ rest, tail = '\n' :: rest) := by
  obtain ⟨lines, part, hf, hl, hp⟩ := exists_lines front
  refine ⟨lines, part, back.takeWhile (· ≠ '\n'), back.dropWhile (· ≠ '\n'), hf, (List.takeWhile_append_dropWhile).symm,
    hl, ?_, ?_⟩
  · rw [List.mem_append]
    rintro (h | h)
    · exact hp h
    · simpa using List.mem_takeWhile_imp h
  · cases hd : back.dropWhile (· ≠ '\n') with
    | nil => exact Or.inl rfl
    | cons c rest =>
      have hc := List.head?_dropWhile_not (fun c : Char => decide (c ≠ '\n')) back
      rw [hd, List.head?_cons] at hc
      simp only [decide_eq_false_iff_not, not_not] at hc
      exact Or.inr ⟨rest, by rw [hc]⟩

/-- At every boundary, and past the end, there is an excerpt. -/
theorem exists_excerpt_eq_ok {offset : Nat}
    (h : text.utf8ByteSize ≤ offset ∨ (⟨offset⟩ : String.Pos.Raw).IsValid text) (hb : text.utf8ByteSize < sizeBound)
    (count : Nat) : ∃ quoted, (ofText text).excerpt offset count = .ok quoted := by
  have hboundary : ∀ front back, text.toList = front ++ back →
      ∃ quoted, (ofText text).excerpt (String.utf8Len front) count = .ok quoted := by
    intro front back ht
    obtain ⟨lines, part, more, tail, rfl, rfl, hl, hp, htail⟩ := exists_line front back
    refine ⟨_, excerpt_eq ?_ hl hp htail hb count⟩
    rw [ht]
    simp only [List.append_assoc]
  rcases h with h | h
  · have hend : String.utf8Len text.toList = text.utf8ByteSize := String.utf8Len_toList text
    have hsame : (ofText text).excerpt offset count = (ofText text).excerpt text.utf8ByteSize count := by
      rw [excerpt, excerpt, positionAt_of_size_le h]
    rw [hsame, ← hend]
    exact hboundary text.toList [] (List.append_nil _).symm
  · obtain ⟨front, back, ht, rfl⟩ := Text.isValid_iff.1 h
    exact hboundary front back ht

end LineIndex

end Lexing
