/-!
# Tables

A table binds names to values.  Its bindings are sorted by name and no name is bound twice, so
equal tables are equal lists and the order of insertion leaves no trace.
-/

namespace Gatehouse

/-- Bindings, sorted by name. -/
abbrev Table (α : Type u) := List (String × α)

namespace Table

variable {α : Type u}

/-- Binds `name`, replacing an earlier binding. -/
def insert (name : String) (value : α) : Table α → Table α
  | [] => [(name, value)]
  | (key, old) :: rest =>
    if name < key then (name, value) :: (key, old) :: rest
    else if name = key then (name, value) :: rest
    else (key, old) :: insert name value rest

def get? (name : String) : Table α → Option α
  | [] => none
  | (key, value) :: rest => if key = name then some value else get? name rest

def erase (name : String) (table : Table α) : Table α :=
  table.filter fun (key, _) => key ≠ name

/-- Binds every pair in turn, so that of two equal names the later wins. -/
def ofList (pairs : List (String × α)) : Table α :=
  pairs.foldl (fun table (name, value) => insert name value table) []

/-- Adds the bindings of `extra`, which win. -/
def extend (table extra : Table α) : Table α :=
  extra.foldl (fun table (name, value) => insert name value table) table

def names (table : Table α) : List String := table.map Prod.fst

theorem get?_insert_self (name : String) (value : α) (table : Table α) :
    get? name (insert name value table) = some value := by
  induction table with
  | nil => simp [insert, get?]
  | cons head rest ih =>
    obtain ⟨key, old⟩ := head
    by_cases hlt : name < key
    · simp [insert, hlt, get?]
    · by_cases heq : name = key
      · simp [insert, heq, get?]
      · simpa [insert, hlt, heq, get?, Ne.symm heq] using ih

theorem get?_insert_of_ne {name other : String} (h : other ≠ name) (value : α) (table : Table α) :
    get? other (insert name value table) = get? other table := by
  induction table with
  | nil => simp [insert, get?, Ne.symm h]
  | cons head rest ih =>
    obtain ⟨key, old⟩ := head
    by_cases hlt : name < key
    · simp [insert, hlt, get?, Ne.symm h]
    · by_cases heq : name = key
      · subst heq
        simp [insert, get?, Ne.symm h]
      · simp only [insert, hlt, heq, if_false, get?]
        by_cases hk : key = other
        · simp [hk]
        · simpa [hk] using ih

end Table

end Gatehouse
