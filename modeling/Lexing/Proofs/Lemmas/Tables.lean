import Lexing.Assoc
import Lexing.Path
import Mathlib.Algebra.BigOperators.Group.List.Basic
import Mathlib.Algebra.GroupWithZero.Nat

/-!
# Tables in order

A table whose keys rise holds each key once, and stays that way when a value is changed (`Sorted.alter`). What is stored then is told
key by key (`get?_alter_self`, `get?_alter_other`), and a sum over the table is one over its keys (`total_eq_sum`).

Paths are such keys: they are put in order by their parts, and two spellings with the same parts are one key
(`Path.compare_eq_iff`).
-/

namespace Lexing

namespace Assoc

variable {κ β : Type} {cmp : κ → κ → Ordering} {key other : κ} {change : Option β → β} {table : List (κ × β)}

/-- The keys of a table rise. -/
def Sorted (cmp : κ → κ → Ordering) (table : List (κ × β)) : Prop :=
  table.Pairwise fun a b => cmp a.1 b.1 = .lt

/-! ## Entries -/

/-- An entry of a table in which one value was changed is the changed one or was there before. -/
theorem of_mem_alter {entry : κ × β} (h : entry ∈ alter cmp key change table) :
    entry ∈ table ∨ entry = (key, change none) ∨ ∃ old ∈ table, entry = (old.1, change (some old.2)) := by
  induction table with
  | nil => exact Or.inr (Or.inl (List.mem_singleton.1 h))
  | cons first rest ih =>
    rw [alter] at h
    split at h
    · rcases List.mem_cons.1 h with h | h
      · exact Or.inr (Or.inl h)
      · exact Or.inl h
    · rcases List.mem_cons.1 h with h | h
      · exact Or.inr (Or.inr ⟨first, List.mem_cons_self, h⟩)
      · exact Or.inl (List.mem_cons_of_mem first h)
    · rcases List.mem_cons.1 h with rfl | h
      · exact Or.inl List.mem_cons_self
      · rcases ih h with h | h | ⟨old, ho, he⟩
        · exact Or.inl (List.mem_cons_of_mem first h)
        · exact Or.inr (Or.inl h)
        · exact Or.inr (Or.inr ⟨old, List.mem_cons_of_mem first ho, he⟩)

/-- No key is new but the changed one. -/
theorem key_of_mem_alter {entry : κ × β} (h : entry ∈ alter cmp key change table) :
    entry.1 = key ∨ ∃ old ∈ table, entry.1 = old.1 := by
  rcases of_mem_alter h with h | rfl | ⟨old, ho, rfl⟩
  · exact Or.inr ⟨entry, h, rfl⟩
  · exact Or.inl rfl
  · exact Or.inr ⟨old, ho, rfl⟩

/-- Changing a value keeps the keys in order. -/
theorem Sorted.alter [Std.TransCmp cmp] (h : Sorted cmp table) (key : κ) (change : Option β → β) :
    Sorted cmp (alter cmp key change table) := by
  induction table with
  | nil => exact List.pairwise_singleton _ _
  | cons first rest ih =>
    obtain ⟨hfirst, hrest⟩ := List.pairwise_cons.1 h
    rw [Assoc.alter]
    split
    · rename_i hlt
      refine List.pairwise_cons.2 ⟨?_, h⟩
      intro entry he
      rcases List.mem_cons.1 he with rfl | he
      · exact hlt
      · exact Std.TransCmp.lt_trans hlt (hfirst entry he)
    · exact List.pairwise_cons.2 ⟨hfirst, hrest⟩
    · rename_i hgt
      refine List.pairwise_cons.2 ⟨?_, ih hrest⟩
      intro entry he
      rcases key_of_mem_alter he with hk | ⟨old, ho, hk⟩
      · rw [hk]
        exact Std.OrientedCmp.lt_of_gt hgt
      · rw [hk]
        exact hfirst old ho

/-- Tables with the same entries are the same. -/
theorem Sorted.eq_of_mem_iff {others : List (κ × β)} [Std.OrientedCmp cmp] (h : Sorted cmp table) (h' : Sorted cmp others)
    (hmem : ∀ entry, entry ∈ table ↔ entry ∈ others) : table = others := by
  have hnodup : ∀ {table : List (κ × β)}, Sorted cmp table → table.Nodup := by
    intro table h
    refine h.imp ?_
    rintro a b hlt rfl
    exact absurd hlt (Std.OrientedCmp.not_lt_of_lt hlt)
  refine List.Perm.eq_of_pairwise ?_ h h' ((List.perm_ext_iff_of_nodup (hnodup h) (hnodup h')).2 hmem)
  intro a b _ _ hab hba
  exact absurd hba (Std.OrientedCmp.not_lt_of_lt hab)

/-! ## Values -/

/-- Spellings of one key have the same value. -/
theorem get?_congr [Std.TransCmp cmp] (h : cmp key other = .eq) (table : List (κ × β)) :
    get? cmp key table = get? cmp other table := by
  induction table with
  | nil => rfl
  | cons first rest ih => rw [get?, get?, Std.TransCmp.congr_left h, ih]

/-- A key in front of all keys of a table has no value there. -/
theorem get?_eq_none_of_lt (h : ∀ entry ∈ table, cmp key entry.1 = .lt) : get? cmp key table = none := by
  induction table with
  | nil => rfl
  | cons first rest ih =>
    have hne : ¬cmp key first.1 = .eq := by simp [h first List.mem_cons_self]
    rw [get?, if_neg hne]
    exact ih fun entry he => h entry (List.mem_cons_of_mem first he)

/-- The value of the key that is changed. -/
theorem get?_alter_self [Std.TransCmp cmp] (h : Sorted cmp table) (key : κ) (change : Option β → β) :
    get? cmp key (alter cmp key change table) = some (change (get? cmp key table)) := by
  have hself : cmp key key = .eq := Std.ReflCmp.compare_self
  induction table with
  | nil => simp [alter, get?, hself]
  | cons first rest ih =>
    obtain ⟨hfirst, hrest⟩ := List.pairwise_cons.1 h
    rw [alter]
    split
    · rename_i hlt
      have hnone : get? cmp key (first :: rest) = none := by
        refine get?_eq_none_of_lt fun entry he => ?_
        rcases List.mem_cons.1 he with rfl | he
        · exact hlt
        · exact Std.TransCmp.lt_trans hlt (hfirst entry he)
      rw [get?, if_pos hself, hnone]
    · rename_i heq
      rw [get?, get?, if_pos heq, if_pos heq]
    · rename_i hgt
      have hne : ¬cmp key first.1 = .eq := by simp [hgt]
      rw [get?, get?, if_neg hne, if_neg hne]
      exact ih hrest

/-- An entry's value is the one that is found under its key. -/
theorem get?_of_mem [Std.TransCmp cmp] (h : Sorted cmp table) {entry : κ × β} (he : entry ∈ table) :
    get? cmp entry.1 table = some entry.2 := by
  induction table with
  | nil => cases he
  | cons first rest ih =>
    obtain ⟨hfirst, hrest⟩ := List.pairwise_cons.1 h
    rcases List.mem_cons.1 he with rfl | he
    · rw [get?, if_pos Std.ReflCmp.compare_self]
    · have hne : ¬cmp entry.1 first.1 = .eq := by
        intro heq
        have hlt := hfirst entry he
        rw [Std.OrientedCmp.eq_symm heq] at hlt
        cases hlt
      rw [get?, if_neg hne]
      exact ih hrest he

/-- A value that is found is that of an entry with a spelling of the key. -/
theorem exists_mem_of_get? {value : β} (h : get? cmp key table = some value) :
    ∃ entry ∈ table, cmp key entry.1 = .eq ∧ entry.2 = value := by
  induction table with
  | nil => cases h
  | cons first rest ih =>
    rw [get?] at h
    split at h
    · rename_i heq
      exact ⟨first, List.mem_cons_self, heq, Option.some.inj h⟩
    · obtain ⟨entry, he, hentry⟩ := ih h
      exact ⟨entry, List.mem_cons_of_mem first he, hentry⟩

/-- Other keys keep their values. -/
theorem get?_alter_other [Std.TransCmp cmp] (h : cmp other key ≠ .eq) (change : Option β → β) (table : List (κ × β)) :
    get? cmp other (alter cmp key change table) = get? cmp other table := by
  induction table with
  | nil => simp [alter, get?, h]
  | cons first rest ih =>
    rw [alter]
    split
    · rw [get?, if_neg h]
    · rename_i heq
      have hne : ¬cmp other first.1 = .eq := by rwa [← Std.TransCmp.congr_right heq]
      rw [get?, get?, if_neg hne, if_neg hne]
    · rw [get?, get?, ih]

theorem Sorted.insert [Std.TransCmp cmp] (h : Sorted cmp table) (key : κ) (value : β) : Sorted cmp (insert cmp key value table) :=
  h.alter key _

/-- The value that is stored under a key. -/
theorem get?_insert_self [Std.TransCmp cmp] (h : Sorted cmp table) (key : κ) (value : β) :
    get? cmp key (insert cmp key value table) = some value := get?_alter_self h key _

/-- Storing a value takes none from other keys. -/
theorem get?_insert_other [Std.TransCmp cmp] (h : cmp other key ≠ .eq) (value : β) (table : List (κ × β)) :
    get? cmp other (insert cmp key value table) = get? cmp other table := get?_alter_other h _ table

/-! ## Sums -/

/-- A sum rises by one at most when one summand does. -/
theorem total_alter_le {measure : β → Nat} (h : ∀ old, measure (change old) ≤ (old.map measure).getD 0 + 1)
    (cmp : κ → κ → Ordering) (key : κ) (table : List (κ × β)) :
    total (fun _ value => measure value) (alter cmp key change table) ≤ total (fun _ value => measure value) table + 1 := by
  induction table with
  | nil => simpa [alter, total] using h none
  | cons first rest ih =>
    have hnone := h none
    have hsome := h (some first.2)
    simp only [Option.map_none, Option.map_some, Option.getD_none, Option.getD_some] at hnone hsome
    rw [alter]
    split <;> simp only [total] <;> omega

/-- A sum rises by as much as the summand of the key that is changed. -/
theorem total_alter {measure : κ → β → Nat} {extra : Nat} (hnew : measure key (change none) = extra)
    (hold : ∀ k old, cmp key k = .eq → measure k (change (some old)) = measure k old + extra) (table : List (κ × β)) :
    total measure (alter cmp key change table) = total measure table + extra := by
  induction table with
  | nil => simp [alter, total, hnew]
  | cons first rest ih =>
    rw [alter]
    split
    · simp only [total]
      omega
    · rename_i heq
      have hfirst := hold first.1 first.2 heq
      simp only [total]
      omega
    · simp only [total]
      omega

/-- The sum of the values of a table. -/
theorem total_value (table : List (κ × Nat)) : total (fun _ value => value) table = (table.map Prod.snd).sum := by
  induction table with
  | nil => rfl
  | cons first rest ih => rw [total, ih, List.map_cons, List.sum_cons]

/-- A sum over a table is the sum over its keys, when these are told apart. -/
theorem total_eq_sum [Std.TransCmp cmp] (h : Sorted cmp table) (measure : β → Nat) {keys : List κ}
    (hapart : keys.Pairwise fun a b => cmp a b ≠ .eq) (hall : ∀ entry ∈ table, ∃ key ∈ keys, cmp key entry.1 = .eq) :
    total (fun _ value => measure value) table = (keys.map fun key => ((get? cmp key table).map measure).getD 0).sum := by
  induction table generalizing keys with
  | nil => simp [total, get?]
  | cons first rest ih =>
    obtain ⟨hfirst, hrest⟩ := List.pairwise_cons.1 h
    obtain ⟨key, hkey, heq⟩ := hall first List.mem_cons_self
    obtain ⟨front, back, rfl⟩ := List.append_of_mem hkey
    obtain ⟨hkeyapart, hrestapart⟩ :
        (∀ k ∈ front ++ back, cmp key k ≠ .eq) ∧ (front ++ back).Pairwise fun a b => cmp a b ≠ .eq := by
      rwa [List.pairwise_middle fun hxy hyx => hxy (Std.OrientedCmp.eq_symm hyx), List.pairwise_cons] at hapart
    -- The other keys are not the first one, so they have their values in the rest of the table.
    have hother : ∀ k ∈ front ++ back, get? cmp k (first :: rest) = get? cmp k rest := by
      intro k hk
      have hne : ¬cmp k first.1 = .eq := by
        intro hkeq
        exact hkeyapart k hk (Std.TransCmp.eq_trans heq (Std.OrientedCmp.eq_symm hkeq))
      rw [get?, if_neg hne]
    have hcovered : ∀ entry ∈ rest, ∃ k ∈ front ++ back, cmp k entry.1 = .eq := by
      intro entry he
      obtain ⟨k, hk, hkeq⟩ := hall entry (List.mem_cons_of_mem first he)
      rcases List.mem_cons.1 (List.perm_middle.subset hk) with rfl | hk
      · have hlt := hfirst entry he
        rw [← Std.TransCmp.congr_left heq, hkeq] at hlt
        cases hlt
      · exact ⟨k, hk, hkeq⟩
    have hsum := ih hrest hrestapart hcovered
    have hvalue : get? cmp key (first :: rest) = some first.2 := by rw [get?, if_pos heq]
    have hvalues : ((front ++ back).map fun k => ((get? cmp k (first :: rest)).map measure).getD 0) =
        (front ++ back).map fun k => ((get? cmp k rest).map measure).getD 0 :=
      List.map_congr_left fun k hk => by rw [hother k hk]
    rw [(List.perm_middle.map _).sum_eq, List.map_cons, List.sum_cons, hvalue, hvalues, ← hsum]
    rfl

/-- A sum of ones over the entries with some property is their number. -/
theorem total_ite (test : β → Bool) (table : List (κ × β)) :
    total (fun _ value => if test value then 1 else 0) table = (table.map Prod.snd).countP test := by
  induction table with
  | nil => rfl
  | cons first rest ih =>
    rw [total, ih, List.map_cons, List.countP_cons]
    exact Nat.add_comm _ _

/-- The entries with some property are as many as the keys that have a value with it, when these are told apart. -/
theorem countP_values [Std.TransCmp cmp] (h : Sorted cmp table) (test : β → Bool) {keys : List κ}
    (hapart : keys.Pairwise fun a b => cmp a b ≠ .eq) (hall : ∀ entry ∈ table, ∃ key ∈ keys, cmp key entry.1 = .eq) :
    (table.map Prod.snd).countP test = keys.countP fun key => (get? cmp key table).any test := by
  rw [← total_ite, total_eq_sum h _ hapart hall]
  clear hapart hall
  induction keys with
  | nil => rfl
  | cons key rest ih =>
    rw [List.map_cons, List.sum_cons, ih, List.countP_cons, Nat.add_comm]
    cases get? cmp key table <;> rfl

end Assoc

/-! ## Paths in order -/

namespace PathPart

/-- The name of a part that has one. -/
def label : PathPart → String
  | named name => name
  | _ => ""

/-- Parts are compared by sort and then by name. -/
theorem compare_eq_compareLex : compare = compareLex (compareOn rank) (compareOn label) := by
  funext a b
  cases a <;> cases b <;> rfl

instance : Std.TransCmp compare := by
  rw [compare_eq_compareLex]
  infer_instance

instance : Std.LawfulEqCmp compare where
  compare_self := Std.ReflCmp.compare_self
  eq_of_compare {a b} h := by
    rw [compare_eq_compareLex] at h
    cases a <;> cases b <;> simp_all [compareLex, compareOn, rank, label]

end PathPart

namespace Path

theorem compareParts_eq_compareLex (as bs : List PathPart) : compareParts as bs = List.compareLex PathPart.compare as bs := by
  induction as generalizing bs with
  | nil => cases bs <;> rfl
  | cons a as ih =>
    cases bs with
    | nil => rfl
    | cons b bs =>
      rw [compareParts, List.compareLex_cons_cons, ih]

/-- Two paths are one key when they have the same parts. -/
theorem compare_eq_iff {a b : Path} : compare a b = .eq ↔ a.parts = b.parts := by
  rw [compare, compareParts_eq_compareLex]
  exact Std.LawfulEqCmp.compare_eq_iff_eq

/-- Paths of different files are different keys. -/
theorem pairwise_compare_ne {files : List Path} (h : files.Pairwise fun a b => a.parts ≠ b.parts) :
    files.Pairwise fun a b => compare a b ≠ .eq :=
  h.imp fun hab heq => hab (compare_eq_iff.1 heq)

/-- When the files of a table are among some paths, its keys are. -/
theorem exists_compare_eq {β : Type} {files : List Path} {table : List (Path × β)}
    (h : ∀ entry ∈ table, ∃ file ∈ files, file.parts = entry.1.parts) :
    ∀ entry ∈ table, ∃ file ∈ files, compare file entry.1 = .eq := by
  intro entry he
  obtain ⟨file, hf, heq⟩ := h entry he
  exact ⟨file, hf, compare_eq_iff.2 heq⟩

instance : Std.TransCmp compare where
  eq_swap {a b} := by
    simp only [compare, compareParts_eq_compareLex]
    exact Std.OrientedCmp.eq_swap
  isLE_trans {a b c} hab hbc := by
    simp only [compare, compareParts_eq_compareLex] at hab hbc ⊢
    exact Std.TransCmp.isLE_trans hab hbc

end Path

end Lexing
