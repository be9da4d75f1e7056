/-!
# Ordered tables

A table is a list of keys and values in the order of a comparison of keys. Two keys that compare equal are one key; the
spelling that came first stays.
-/

namespace Lexing.Assoc

variable {κ β : Type}

/-- The value stored under a key, if there is one. -/
def get? (cmp : κ → κ → Ordering) (key : κ) : List (κ × β) → Option β
  | [] => none
  | (k, v) :: rest => if cmp key k = .eq then some v else get? cmp key rest

/-- Changes the value under a key, or puts a new one in its place in the order. -/
def alter (cmp : κ → κ → Ordering) (key : κ) (change : Option β → β) : List (κ × β) → List (κ × β)
  | [] => [(key, change none)]
  | (k, v) :: rest =>
    match cmp key k with
    | .lt => (key, change none) :: (k, v) :: rest
    | .eq => (k, change (some v)) :: rest
    | .gt => (k, v) :: alter cmp key change rest

/-- The sum of a measure over the entries of a table. -/
def total (measure : κ → β → Nat) : List (κ × β) → Nat
  | [] => 0
  | (k, v) :: rest => measure k v + total measure rest

/-- Stores a value under a key. -/
def insert (cmp : κ → κ → Ordering) (key : κ) (value : β) (table : List (κ × β)) : List (κ × β) :=
  alter cmp key (fun _ => value) table

end Lexing.Assoc
