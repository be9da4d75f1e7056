import Lexing.Json
import Lexing.Toml.Text
import Mathlib.Data.List.Basic

/-!
# Reading JSON text

A reader of JSON text, by its grammar and not by what the library writes: blank space may stand between the parts, a text may
escape any character, in two halves if need be, and a number has no needless zero in front. It knows the values that the library
has: texts, counts, truth values and objects. `parse?_render` says that it reads every value back from its compact form, and
`printable_of_mem_render` that this form has no control character, so that it stays on its line.
-/

namespace Lexing.Json

open Toml (hexValue?)

/-! ## The reader -/

/-- Whether a character may stand between the parts of a value. -/
def isSpace (c : Char) : Bool := c = ' ' || c = '\t' || c = '\n' || c = '\r'

/-- The characters behind the space at the front. -/
def skipSpace (cs : List Char) : List Char := cs.dropWhile isSpace

/-- The number that hexadecimal digits write. -/
def hexNumber? (digits : List Char) : Option Nat :=
  digits.foldlM (fun number digit => (hexValue? digit).map fun value => number * 16 + value) 0

/-- Whether a number is the first half of a character outside the first plane. -/
def isLeading (unit : Nat) : Bool := 0xd800 ≤ unit && unit < 0xdc00

/-- Whether a number is the second half of a character outside the first plane. -/
def isTrailing (unit : Nat) : Bool := 0xdc00 ≤ unit && unit < 0xe000

/-- The character that a number stands for. A first half needs the second half behind it, as an escape of its own. -/
def namedChar (unit : Nat) : Toml.Reading Char := fun cs =>
  if isLeading unit then
    match cs with
    | '\\' :: 'u' :: a :: b :: c :: d :: rest =>
      match hexNumber? [a, b, c, d] with
      | some half =>
        if isTrailing half then some (Char.ofNat (0x10000 + (unit - 0xd800) * 0x400 + (half - 0xdc00)), rest) else none
      | none => none
    | _ => none
  else if isTrailing unit then none
  else some (Char.ofNat unit, cs)

/-- The character that an escape stands for, behind its backslash. -/
def escapedChar : Toml.Reading Char
  | 'u' :: a :: b :: c :: d :: rest =>
    match hexNumber? [a, b, c, d] with
    | some unit => namedChar unit rest
    | none => none
  | '/' :: rest => some ('/', rest)
  | c :: rest => (Toml.shortEscape? c).map fun meant => (meant, rest)
  | [] => none

/-- One character of a quoted text. -/
def quotedChar : Toml.Reading Char
  | [] => none
  | c :: rest =>
    if c = '\\' then escapedChar rest
    else if c = '"' || c.toNat < 0x20 then none
    else some (c, rest)

theorem length_namedChar {unit : Nat} {c : Char} {cs rest : List Char} (h : namedChar unit cs = some (c, rest)) :
    rest.length ≤ cs.length := by
  unfold namedChar at h
  split at h
  · split at h
    · split at h
      · split at h
        · obtain ⟨-, rfl⟩ := Prod.mk.inj (Option.some.inj h)
          simp only [List.length_cons]
          omega
        · cases h
      · cases h
    · cases h
  · split at h
    · cases h
    · obtain ⟨-, rfl⟩ := Prod.mk.inj (Option.some.inj h)
      exact Nat.le_refl _

theorem length_escapedChar {c : Char} {cs rest : List Char} (h : escapedChar cs = some (c, rest)) :
    rest.length < cs.length := by
  unfold escapedChar at h
  split at h
  · split at h
    · have := length_namedChar h
      simp only [List.length_cons]
      omega
    · cases h
  · obtain ⟨-, rfl⟩ := Prod.mk.inj (Option.some.inj h)
    exact Nat.lt_succ_self _
  · obtain ⟨_, -, he⟩ := Option.map_eq_some_iff.1 h
    obtain ⟨-, rfl⟩ := Prod.mk.inj he
    exact Nat.lt_succ_self _
  · cases h

/-- Reading a character leaves fewer of them. -/
theorem length_quotedChar {c : Char} {cs rest : List Char} (h : quotedChar cs = some (c, rest)) :
    rest.length < cs.length := by
  unfold quotedChar at h
  split at h
  · cases h
  · split at h
    · have := length_escapedChar h
      simp only [List.length_cons]
      omega
    · split at h
      · cases h
      · obtain ⟨-, rfl⟩ := Prod.mk.inj (Option.some.inj h)
        exact Nat.lt_succ_self _

/-- The rest of a quoted text, behind its opening quote. -/
def textRest (cs : List Char) : Option (List Char × List Char) :=
  if cs.head? = some '"' then some ([], cs.tail)
  else
    match _read : quotedChar cs with
    | none => none
    | some (c, rest) => (textRest rest).map fun (read, rest) => (c :: read, rest)
termination_by cs.length
decreasing_by exact length_quotedChar _read

/-- A number without a sign, a point or an exponent. A zero in front of it must be all of it. -/
def number : Toml.Reading Nat := fun cs =>
  let digits := cs.takeWhile Char.isDigit
  if digits = [] ∨ (digits.head? = some '0' ∧ digits ≠ ['0']) then none
  else some (Nat.ofDigitChars 10 digits 0, cs.dropWhile Char.isDigit)

/-- A value that is no object. -/
def scalar (cs : List Char) : Option (Json × List Char) :=
  match cs with
  | '"' :: rest => (textRest rest).map fun (read, rest) => (.text (String.ofList read), rest)
  | 't' :: 'r' :: 'u' :: 'e' :: rest => some (.flag true, rest)
  | 'f' :: 'a' :: 'l' :: 's' :: 'e' :: rest => some (.flag false, rest)
  | cs => (number cs).map fun (read, rest) => (.count read, rest)

/-- A field of an object: a key and a value, with a colon between them. -/
def field (value : Toml.Reading Json) (cs : List Char) : Option ((String × Json) × List Char) :=
  match skipSpace cs with
  | '"' :: rest =>
    match textRest rest with
    | none => none
    | some (key, rest) =>
      match skipSpace rest with
      | ':' :: rest => (value rest).map fun (found, rest) => ((String.ofList key, found), skipSpace rest)
      | _ => none
  | _ => none

/-- The fields of an object up to its closing brace, at least one. -/
def fields (value : Toml.Reading Json) : Nat → Toml.Reading (List (String × Json))
  | 0, _ => none
  | fuel + 1, cs =>
    match field value cs with
    | some (first, ',' :: rest) => (fields value fuel rest).map fun (others, rest) => (first :: others, rest)
    | some (first, '}' :: rest) => some ([first], rest)
    | _ => none

/-- A value in which objects are nested at most so deep. -/
def value : Nat → Toml.Reading Json
  | 0, cs => scalar (skipSpace cs)
  | depth + 1, cs =>
    match skipSpace cs with
    | '{' :: rest =>
      match skipSpace rest with
      | '}' :: rest => some (.object [], rest)
      | rest => (fields (value depth) cs.length rest).map fun (found, rest) => (.object found, rest)
    | cs => scalar cs

/-- The value that a text writes, with nothing but space behind it. No value is nested deeper than its text is long. -/
def parse? (cs : List Char) : Option Json :=
  match value cs.length cs with
  | some (found, rest) => if skipSpace rest = [] then some found else none
  | none => none

/-! ## Texts -/

theorem hexValue?_hexDigit : ∀ n < 16, hexValue? (hexDigit n) = some n := by decide

/-- An escaped control character is read back. -/
theorem escapedChar_unit {c : Char} (h : c.toNat < 0x20) (rest : List Char) :
    escapedChar ('u' :: '0' :: '0' :: hexDigit (c.toNat / 16) :: hexDigit (c.toNat % 16) :: rest) = some (c, rest) := by
  have hzero : hexValue? '0' = some 0 := by decide
  have hunit : hexNumber? ['0', '0', hexDigit (c.toNat / 16), hexDigit (c.toNat % 16)] = some c.toNat := by
    have hhigh := hexValue?_hexDigit (c.toNat / 16) (by omega)
    have hlow := hexValue?_hexDigit (c.toNat % 16) (by omega)
    simp only [hexNumber?, List.foldlM_cons, List.foldlM_nil, hzero, hhigh, hlow, Option.map_some, Option.bind_eq_bind,
      Option.bind_some, Option.pure_def, Option.some.injEq]
    omega
  have hlead : isLeading c.toNat = false := by
    unfold isLeading
    simp only [Bool.and_eq_false_iff, decide_eq_false_iff_not]
    omega
  have htrail : isTrailing c.toNat = false := by
    unfold isTrailing
    simp only [Bool.and_eq_false_iff, decide_eq_false_iff_not]
    omega
  simp [escapedChar, hunit, namedChar, hlead, htrail]

/-- Every character is read back from the characters that stand for it. -/
theorem quotedChar_escapeChar (c : Char) (rest : List Char) : quotedChar (escapeChar c ++ rest) = some (c, rest) := by
  unfold escapeChar
  by_cases hquote : c = '"'
  · subst hquote
    rfl
  by_cases hslash : c = '\\'
  · subst hslash
    rfl
  by_cases hfeed : c = '\n'
  · subst hfeed
    rfl
  by_cases hreturn : c = '\r'
  · subst hreturn
    rfl
  by_cases htab : c = '\t'
  · subst htab
    rfl
  by_cases hback : c.toNat = 0x8
  · obtain rfl : c = '\x08' := Char.toNat_inj.1 hback
    rfl
  by_cases hform : c.toNat = 0xc
  · obtain rfl : c = '\x0c' := Char.toNat_inj.1 hform
    rfl
  by_cases hcontrol : c.toNat < 0x20
  · simp [hquote, hslash, hfeed, hreturn, htab, hback, hform, hcontrol, quotedChar, escapedChar_unit hcontrol]
  · simp [hquote, hslash, hfeed, hreturn, htab, hback, hform, hcontrol, quotedChar]

theorem head?_escapeChar_ne (c : Char) (rest : List Char) : (escapeChar c ++ rest).head? ≠ some '"' := by
  unfold escapeChar
  by_cases hquote : c = '"'
  · simp [hquote]
  · repeat' split
    all_goals simp_all

/-- Before the closing quote a text goes on with a character. -/
theorem textRest_of_quotedChar {c : Char} {cs rest : List Char} (h : cs.head? ≠ some '"')
    (hc : quotedChar cs = some (c, rest)) :
    textRest cs = (textRest rest).map fun (read, rest) => (c :: read, rest) := by
  rw [textRest, if_neg h]
  split
  · rename_i hnone
    cases hnone.symm.trans hc
  · rename_i hsome
    cases hsome.symm.trans hc
    rfl

/-- A quoted text is read back up to its closing quote. -/
theorem textRest_escaped (cs rest : List Char) :
    textRest (cs.flatMap escapeChar ++ '"' :: rest) = some (cs, rest) := by
  induction cs with
  | nil =>
    rw [textRest]
    simp
  | cons c cs ih =>
    rw [List.flatMap_cons, List.append_assoc,
      textRest_of_quotedChar (head?_escapeChar_ne c _) (quotedChar_escapeChar c _), ih]
    rfl

/-! ## Numbers -/

/-- What follows a value does not go on with a digit. -/
def NoDigit (rest : List Char) : Prop := ∀ c ∈ rest.head?, c.isDigit = false

theorem noDigit_nil : NoDigit [] := by
  intro c hc
  cases hc

theorem noDigit_cons {c : Char} (h : c.isDigit = false) (rest : List Char) : NoDigit (c :: rest) := by
  intro d hd
  cases hd
  exact h

/-- The digits of a number have no needless zero in front. -/
theorem toDigits_eq_zero_of_head? (n : Nat) (h : (Nat.toDigits 10 n).head? = some '0') : n = 0 := by
  induction n using Nat.strongRecOn with
  | ind n ih =>
    by_cases hn : n < 10
    · rw [Nat.toDigits_of_lt_base hn] at h
      have hall : ∀ m < 10, m.digitChar = '0' → m = 0 := by decide
      exact hall n hn (by simpa using h)
    · rw [Nat.toDigits_of_base_le (by omega) (by omega), List.head?_append_of_ne_nil _ Nat.toDigits_ne_nil] at h
      have := ih (n / 10) (by omega) h
      omega

/-- A number is read back from its digits. -/
theorem number_toDigits (n : Nat) {rest : List Char} (h : NoDigit rest) :
    number (Nat.toDigits 10 n ++ rest) = some (n, rest) := by
  have hdigits : ∀ c ∈ Nat.toDigits 10 n, c.isDigit = true := fun c hc =>
    Nat.isDigit_of_mem_toDigits (by omega) (by omega) hc
  have htake : rest.takeWhile Char.isDigit = [] := by
    cases rest with
    | nil => rfl
    | cons c rest => simp [h c rfl]
  have hdrop : rest.dropWhile Char.isDigit = rest := by
    cases rest with
    | nil => rfl
    | cons c rest => simp [h c rfl]
  have hzero : ¬(Nat.toDigits 10 n = [] ∨ ((Nat.toDigits 10 n).head? = some '0' ∧ Nat.toDigits 10 n ≠ ['0'])) := by
    rintro (hnil | ⟨hhead, hne⟩)
    · exact Nat.toDigits_ne_nil hnil
    · obtain rfl := toDigits_eq_zero_of_head? n hhead
      exact hne (Nat.toDigits_zero 10)
  unfold number
  simp only [List.takeWhile_append_of_pos hdigits, List.dropWhile_append_of_pos hdigits, htake, hdrop, List.append_nil]
  rw [if_neg hzero, Nat.ofDigitChars_ten_toDigits]

/-! ## Values -/

/-- The characters of the fields of an object, with commas between them. -/
def fieldsChars (found : List (String × Json)) : List Char := (",".intercalate (renderFields found)).toList

theorem fieldsChars_singleton (key : String) (found : Json) :
    fieldsChars [(key, found)] = quoteChars key.toList ++ ':' :: (render found).toList := by
  simp [fieldsChars, renderFields, toList_quote]

theorem fieldsChars_cons (key : String) (found : Json) (next : String × Json) (rest : List (String × Json)) :
    fieldsChars ((key, found) :: next :: rest) =
      quoteChars key.toList ++ ':' :: (render found).toList ++ ',' :: fieldsChars (next :: rest) := by
  obtain ⟨nextKey, nextFound⟩ := next
  simp [fieldsChars, renderFields, toList_quote, String.intercalate_cons_cons]

theorem toList_render_object (found : List (String × Json)) :
    (render (.object found)).toList = '{' :: fieldsChars found ++ ['}'] := by
  simp [render, fieldsChars]

/-- In front of a character that is no space there is no space. -/
theorem skipSpace_cons {c : Char} (h : isSpace c = false) (rest : List Char) : skipSpace (c :: rest) = c :: rest := by
  simp [skipSpace, h]

theorem not_isSpace_of_isDigit {c : Char} (h : c.isDigit) : isSpace c = false := by
  cases hs : isSpace c with
  | false => rfl
  | true =>
    simp only [isSpace, Bool.or_eq_true, decide_eq_true_eq] at hs
    rcases hs with ((rfl | rfl) | rfl) | rfl <;> exact absurd h (by decide)

/-- A number starts with a digit. -/
theorem exists_toDigits_eq_cons (n : Nat) : ∃ c cs, Nat.toDigits 10 n = c :: cs ∧ c.isDigit := by
  obtain ⟨c, cs, hn⟩ := List.exists_cons_of_ne_nil (Nat.toDigits_ne_nil (n := n) (b := 10))
  exact ⟨c, cs, hn, Nat.isDigit_of_mem_toDigits (by omega) (by omega) (hn ▸ List.mem_cons_self)⟩

/-- The compact form of a value does not start with space. -/
theorem skipSpace_render (v : Json) (rest : List Char) :
    skipSpace ((render v).toList ++ rest) = (render v).toList ++ rest := by
  cases v with
  | text s =>
    rw [render, toList_quote]
    exact skipSpace_cons (by decide) _
  | count n =>
    obtain ⟨c, cs, hn, hc⟩ := exists_toDigits_eq_cons n
    rw [render, Nat.toString_eq_ofList_toDigits, String.toList_ofList, hn]
    exact skipSpace_cons (not_isSpace_of_isDigit hc) _
  | flag b => cases b <;> rfl
  | object found =>
    rw [toList_render_object]
    exact skipSpace_cons (by decide) _

/-- A count is read back from its digits. -/
theorem scalar_toDigits (n : Nat) {rest : List Char} (h : NoDigit rest) :
    scalar (Nat.toDigits 10 n ++ rest) = some (.count n, rest) := by
  have hnumber := number_toDigits n h
  obtain ⟨c, cs, hn, hc⟩ := exists_toDigits_eq_cons n
  rw [hn, List.cons_append] at hnumber ⊢
  unfold scalar
  -- A digit is none of the characters that other values start with.
  split
  · rename_i heq
    obtain ⟨rfl, -⟩ := List.cons.inj heq
    exact absurd hc (by decide)
  · rename_i heq
    obtain ⟨rfl, -⟩ := List.cons.inj heq
    exact absurd hc (by decide)
  · rename_i heq
    obtain ⟨rfl, -⟩ := List.cons.inj heq
    exact absurd hc (by decide)
  · rw [hnumber]
    rfl

/-- A field is read back, when its value is and no space stands behind it. -/
theorem field_render {value : Toml.Reading Json} {key : String} {found : Json} {rest : List Char} {c : Char}
    (hc : isSpace c = false) (h : value ((render found).toList ++ c :: rest) = some (found, c :: rest)) :
    field value (quoteChars key.toList ++ ':' :: (render found).toList ++ c :: rest) = some ((key, found), c :: rest) := by
  have hkey := textRest_escaped key.toList (':' :: ((render found).toList ++ c :: rest))
  have hquoted : quoteChars key.toList ++ ':' :: (render found).toList ++ c :: rest =
      '"' :: (key.toList.flatMap escapeChar ++ '"' :: ':' :: ((render found).toList ++ c :: rest)) := by
    simp [quoteChars]
  have hquote : isSpace '"' = false := by decide
  have hcolon : isSpace ':' = false := by decide
  unfold field
  simp only [hquoted, skipSpace_cons hquote, hkey, skipSpace_cons hcolon, h, Option.map_some, skipSpace_cons hc,
    String.ofList_toList]

/-- The fields of an object are read back up to its closing brace, when the values are. -/
theorem fields_render {value : Toml.Reading Json} (found : List (String × Json)) (hne : found ≠ [])
    (h : ∀ entry ∈ found, ∀ rest, NoDigit rest → value ((render entry.2).toList ++ rest) = some (entry.2, rest))
    {fuel : Nat} (hfuel : found.length ≤ fuel) (rest : List Char) :
    fields value fuel (fieldsChars found ++ '}' :: rest) = some (found, rest) := by
  induction found generalizing fuel with
  | nil => exact absurd rfl hne
  | cons entry others ih =>
    obtain ⟨key, first⟩ := entry
    obtain ⟨fuel, rfl⟩ : ∃ less, fuel = less + 1 := ⟨fuel - 1, by rw [List.length_cons] at hfuel; omega⟩
    have hvalue := h (key, first) List.mem_cons_self
    unfold fields
    cases others with
    | nil =>
      rw [fieldsChars_singleton, field_render (by decide) (hvalue _ (noDigit_cons (by decide) rest))]
      rfl
    | cons next more =>
      have hmore := ih (List.cons_ne_nil next more) (fun entry he => h entry (List.mem_cons_of_mem _ he))
        (Nat.le_of_succ_le_succ hfuel)
      rw [fieldsChars_cons, List.append_assoc, List.cons_append,
        field_render (by decide) (hvalue _ (noDigit_cons (by decide) _))]
      simp only [hmore, Option.map_some]

/-- What does not start as an object is read as no object. -/
theorem value_eq_scalar (depth : Nat) {cs : List Char} (hspace : skipSpace cs = cs) (h : cs.head? ≠ some '{') :
    value depth cs = scalar cs := by
  cases depth with
  | zero => rw [value, hspace]
  | succ depth =>
    rw [value, hspace]
    split
    · exact absurd rfl h
    · rfl

/-- Fields start with a quotation mark. -/
theorem exists_fieldsChars_eq_cons (entry : String × Json) (others : List (String × Json)) :
    ∃ cs, fieldsChars (entry :: others) = '"' :: cs := by
  obtain ⟨key, first⟩ := entry
  cases others with
  | nil => exact ⟨_, fieldsChars_singleton key first⟩
  | cons next more => exact ⟨_, fieldsChars_cons key first next more⟩

/-- The first value is shorter than the fields, and so are the other fields. -/
theorem length_fieldsChars (key : String) (first : Json) (others : List (String × Json)) :
    (render first).toList.length + (fieldsChars others).length + 1 ≤ (fieldsChars ((key, first) :: others)).length := by
  cases others with
  | nil =>
    rw [fieldsChars_singleton]
    simp [fieldsChars, renderFields, quoteChars]
    omega
  | cons next more =>
    rw [fieldsChars_cons]
    simp [quoteChars]
    omega

/-- There are no more fields than characters in them. -/
theorem length_le_fieldsChars (found : List (String × Json)) : found.length ≤ (fieldsChars found).length := by
  induction found with
  | nil => exact Nat.zero_le _
  | cons entry others ih =>
    obtain ⟨key, first⟩ := entry
    have := length_fieldsChars key first others
    rw [List.length_cons]
    omega

/-- An object is read back, when the values in it are. -/
theorem object_render {depth : Nat} {found : List (String × Json)}
    (h : ∀ entry ∈ found, ∀ rest, NoDigit rest → value depth ((render entry.2).toList ++ rest) = some (entry.2, rest))
    (rest : List Char) : value (depth + 1) ((render (.object found)).toList ++ rest) = some (.object found, rest) := by
  have hchars : (render (.object found)).toList ++ rest = '{' :: (fieldsChars found ++ '}' :: rest) := by
    simp [toList_render_object]
  have hbrace : isSpace '{' = false := by decide
  rw [hchars, value, skipSpace_cons hbrace]
  cases found with
  | nil => rfl
  | cons entry others =>
    obtain ⟨cs, hcs⟩ := exists_fieldsChars_eq_cons entry others
    have hfuel : (entry :: others).length ≤ ('{' :: (fieldsChars (entry :: others) ++ '}' :: rest)).length := by
      have := length_le_fieldsChars (entry :: others)
      simp only [List.length_cons, List.length_append] at this ⊢
      omega
    have hspace : skipSpace (fieldsChars (entry :: others) ++ '}' :: rest) =
        fieldsChars (entry :: others) ++ '}' :: rest := by
      rw [hcs]
      exact skipSpace_cons (by decide) _
    have hfields := fields_render (entry :: others) (List.cons_ne_nil entry others) h hfuel rest
    simp only [hspace]
    rw [hcs, List.cons_append] at hfields ⊢
    split
    · rename_i heq
      cases heq
    · rw [hfields]
      rfl

mutual

/-- Every value is read back from its compact form, whatever stands behind it that is no digit. -/
theorem value_render (v : Json) {depth : Nat} (hdepth : (render v).toList.length ≤ depth) {rest : List Char}
    (h : NoDigit rest) : value depth ((render v).toList ++ rest) = some (v, rest) := by
  have hspace := skipSpace_render v rest
  cases v with
  | text s =>
    have htext := textRest_escaped s.toList rest
    have hchars : (render (.text s)).toList ++ rest = '"' :: (s.toList.flatMap escapeChar ++ '"' :: rest) := by
      simp [render, toList_quote, quoteChars]
    rw [hchars] at hspace ⊢
    rw [value_eq_scalar depth hspace (by simp), scalar, htext]
    simp
  | count n =>
    obtain ⟨c, cs, hn, hc⟩ := exists_toDigits_eq_cons n
    have hchars : (render (.count n)).toList = Nat.toDigits 10 n := by
      rw [render, Nat.toString_eq_ofList_toDigits, String.toList_ofList]
    have hhead : (Nat.toDigits 10 n ++ rest).head? ≠ some '{' := by
      rw [hn]
      rintro heq
      cases heq
      exact absurd hc (by decide)
    rw [hchars] at hspace ⊢
    rw [value_eq_scalar depth hspace hhead, scalar_toDigits n h]
  | flag b =>
    rw [value_eq_scalar depth hspace (by cases b <;> simp [render])]
    cases b <;> rfl
  | object found =>
    have hlength := hdepth
    rw [toList_render_object, List.length_append, List.length_cons] at hlength
    obtain ⟨less, rfl⟩ : ∃ less, depth = less + 1 := ⟨depth - 1, by omega⟩
    exact object_render (values_render found (by omega)) rest

/-- The values of fields are read back. -/
theorem values_render (found : List (String × Json)) {depth : Nat} (hdepth : (fieldsChars found).length ≤ depth) :
    ∀ entry ∈ found, ∀ rest, NoDigit rest → value depth ((render entry.2).toList ++ rest) = some (entry.2, rest) := by
  match found with
  | [] => exact fun entry he => absurd he List.not_mem_nil
  | (key, first) :: others =>
    have hlength := length_fieldsChars key first others
    intro entry he rest hrest
    rcases List.mem_cons.1 he with rfl | he
    · exact value_render first (by omega) hrest
    · exact values_render others (by omega) entry he rest hrest

end

/-- Every value is read back from its compact form. -/
theorem parse?_render (v : Json) : parse? (render v).toList = some v := by
  have hvalue := value_render v (Nat.le_refl _) noDigit_nil
  rw [List.append_nil] at hvalue
  rw [parse?, hvalue]
  rfl

/-! ## Control characters -/

theorem printable_of_all {cs : List Char} (h : (cs.all fun d => 0x20 ≤ d.toNat) = true) {d : Char} (hd : d ∈ cs) :
    0x20 ≤ d.toNat := by
  have hall := List.all_eq_true.1 h d hd
  simpa using hall

theorem printable_hexDigit : ∀ n < 16, 0x20 ≤ (hexDigit n).toNat := by decide

/-- No control character stands for a character. -/
theorem printable_of_mem_escapeChar {c d : Char} (h : d ∈ escapeChar c) : 0x20 ≤ d.toNat := by
  unfold escapeChar at h
  repeat' split at h
  any_goals
    refine printable_of_all ?_ h
    decide
  · rename_i hcontrol
    have hhigh := printable_hexDigit (c.toNat / 16) (by omega)
    have hlow := printable_hexDigit (c.toNat % 16) (by omega)
    simp only [List.mem_cons, List.not_mem_nil, or_false] at h
    rcases h with rfl | rfl | rfl | rfl | rfl | rfl
    · decide
    · decide
    · decide
    · decide
    · exact hhigh
    · exact hlow
  · rename_i hcontrol
    obtain rfl := List.mem_singleton.1 h
    exact Nat.not_lt.1 hcontrol

/-- A quoted text has no control character. -/
theorem printable_of_mem_quoteChars {cs : List Char} {d : Char} (h : d ∈ quoteChars cs) : 0x20 ≤ d.toNat := by
  have hquote : 0x20 ≤ '"'.toNat := by decide
  simp only [quoteChars, List.cons_append, List.mem_cons, List.mem_append, List.mem_flatMap, List.not_mem_nil,
    or_false] at h
  rcases h with rfl | ⟨c, -, hc⟩ | rfl
  · exact hquote
  · exact printable_of_mem_escapeChar hc
  · exact hquote

mutual

/-- The compact form of a value has no control character. -/
theorem printable_of_mem_render (v : Json) {d : Char} (h : d ∈ (render v).toList) : 0x20 ≤ d.toNat := by
  cases v with
  | text s =>
    rw [render, toList_quote] at h
    exact printable_of_mem_quoteChars h
  | count n =>
    rw [render, Nat.toString_eq_ofList_toDigits, String.toList_ofList] at h
    have hdigit := Nat.isDigit_of_mem_toDigits (by omega) (by omega) h
    simp only [Char.isDigit, Bool.and_eq_true, decide_eq_true_eq] at hdigit
    exact Nat.le_trans (by decide) (UInt32.le_iff_toNat_le.1 hdigit.1)
  | flag b =>
    cases b with
    | false => exact printable_of_all (by decide) h
    | true => exact printable_of_all (by decide) h
  | object found =>
    rw [toList_render_object] at h
    simp only [List.cons_append, List.mem_cons, List.mem_append, List.not_mem_nil, or_false] at h
    rcases h with rfl | h | rfl
    · decide
    · exact printable_of_mem_fieldsChars found h
    · decide

/-- The fields of an object have no control character. -/
theorem printable_of_mem_fieldsChars (found : List (String × Json)) {d : Char} (h : d ∈ fieldsChars found) :
    0x20 ≤ d.toNat := by
  match found with
  | [] => exact absurd h List.not_mem_nil
  | [(key, first)] =>
    rw [fieldsChars_singleton, List.mem_append, List.mem_cons] at h
    rcases h with h | rfl | h
    · exact printable_of_mem_quoteChars h
    · decide
    · exact printable_of_mem_render first h
  | (key, first) :: next :: more =>
    rw [fieldsChars_cons, List.mem_append, List.mem_append, List.mem_cons, List.mem_cons] at h
    rcases h with (h | rfl | h) | rfl | h
    · exact printable_of_mem_quoteChars h
    · decide
    · exact printable_of_mem_render first h
    · decide
    · exact printable_of_mem_fieldsChars (next :: more) h

end

end Lexing.Json
