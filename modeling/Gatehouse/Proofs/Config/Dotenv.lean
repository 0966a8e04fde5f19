import Gatehouse.Config.Surroundings
import Gatehouse.Proofs.Table

/-!
# What an environment file leaves

Of the assignments of an environment file those count whose variable has no value yet, be it from
the environment or from an assignment before.
-/

namespace Gatehouse.Config

namespace Dotenv

def Meaning.assign (m : Meaning) (name value : String) : Meaning where
  environment :=
    if (Table.get? name m.environment).isSome then m.environment
    else Table.insert name value m.environment
  assigned := Table.insert name value m.assigned

/-- The assignments in front of the first line that is malformed. -/
def assignments (m : Meaning) : List (Except Trouble (List Char)) → List (String × String)
  | [] | .error _ :: _ => []
  | .ok line :: rest =>
    match readLine m line with
    | .error _ => []
    | .ok none => assignments m rest
    | .ok (some (name, value)) => (name, value) :: assignments (m.assign name value) rest

theorem Meaning.get?_assign (m : Meaning) (name value other : String) :
    Table.get? other (m.assign name value).environment =
      (Table.get? other m.environment).or (if name = other then some value else none) := by
  rw [assign]
  by_cases hname : name = other
  · subst hname
    cases hvalue : Table.get? name m.environment with
    | some old => simp [hvalue]
    | none => simp [Table.get?_insert_self]
  · rw [if_neg hname, Option.or_none]
    split
    · rfl
    · exact Table.get?_insert_of_ne (Ne.symm hname) value m.environment

/-- What the environment says counts, and else the first assignment. -/
theorem get?_assign (m : Meaning) (lines : List (Except Trouble (List Char))) (name : String) :
    Table.get? name (assign m lines).1 =
      (Table.get? name m.environment).or (Table.get? name (assignments m lines)) := by
  induction lines generalizing m with
  | nil => rw [assign, assignments, Table.get?, Option.or_none]
  | cons line rest ih =>
      cases line with
      | error trouble => rw [assign, assignments, Table.get?, Option.or_none]
      | ok line =>
          rw [assign, assignments]
          rcases readLine m line with trouble | _ | ⟨key, value⟩
          · simp [Table.get?]
          · exact ih m
          · have hnext := ih (m.assign key value)
            rw [Meaning.get?_assign, Option.or_assoc] at hnext
            refine hnext.trans ?_
            rw [Table.get?]
            by_cases hkey : key = name <;> simp [hkey]

/-- No variable comes to stand in the environment twice. -/
theorem nodup_assign (m : Meaning) (lines : List (Except Trouble (List Char)))
    (h : (m.environment.map Prod.fst).Nodup) : ((assign m lines).1.map Prod.fst).Nodup := by
  induction lines generalizing m with
  | nil => exact h
  | cons line rest ih =>
      cases line with
      | error trouble => exact h
      | ok line =>
          rw [assign]
          rcases readLine m line with trouble | _ | ⟨key, value⟩
          · exact h
          · exact ih m h
          · refine ih (m.assign key value) ?_
            rw [Meaning.assign]
            split
            · exact h
            · next hnew => exact Table.nodup_insert h (by simpa using hnew) value

end Dotenv

namespace Surroundings

/-- The assignments of the environment file. -/
def assignments (around : Surroundings) : List (String × String) :=
  match Table.get? dotenvName around.files with
  | some (.file bytes) => Dotenv.assignments ⟨around.environment, []⟩ (Dotenv.fileLines bytes)
  | _ => []

/-- A variable of the environment keeps its value, and another gets that of its first assignment. -/
theorem get?_withDotenv (around : Surroundings) (name : String) :
    Table.get? name around.withDotenv.1.environment =
      (Table.get? name around.environment).or (Table.get? name around.assignments) := by
  rw [withDotenv, assignments]
  rcases Table.get? dotenvName around.files with _ | bytes | _
  · exact Option.or_none.symm
  · exact Dotenv.get?_assign ⟨around.environment, []⟩ (Dotenv.fileLines bytes) name
  · exact Option.or_none.symm

theorem nodup_withDotenv (around : Surroundings) (h : (around.environment.map Prod.fst).Nodup) :
    (around.withDotenv.1.environment.map Prod.fst).Nodup := by
  rw [withDotenv]
  rcases Table.get? dotenvName around.files with _ | bytes | _
  · exact h
  · exact Dotenv.nodup_assign ⟨around.environment, []⟩ (Dotenv.fileLines bytes) h
  · exact h

/-- Reading the environment file does not change what is there. -/
theorem find?_withDotenv (around : Surroundings) (path : String) :
    around.withDotenv.1.find? path = around.find? path := by
  rw [withDotenv]
  rcases Table.get? dotenvName around.files with _ | bytes | _ <;> rfl

end Surroundings

end Gatehouse.Config
