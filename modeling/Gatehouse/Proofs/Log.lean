import Gatehouse.Log
import Mathlib.Order.Defs.Unbundled

/-!
# Growing logs

Most lines of a log are about one event.  The line about the end of a request is the only one that
begins with the time the request took, so lines without a time are lines about something else.
-/

namespace Gatehouse.Log

/-- The log goes on with lines that are not about the end of a request. -/
def Continues (before after : Log) : Prop :=
  ∃ lines : Log, after = before ++ lines ∧ ∀ line ∈ lines, line.timed = false

theorem Continues.append {before lines : Log} (h : ∀ line ∈ lines, line.timed = false) :
    Continues before (before ++ lines) :=
  ⟨lines, rfl, h⟩

theorem Continues.append_line {before : Log} {line : LogLine} (h : line.timed = false) :
    Continues before (before ++ [line]) :=
  .append fun other hother => by rwa [List.mem_singleton.mp hother]

instance : IsPreorder Log Continues where
  refl log := ⟨[], (List.append_nil log).symm, fun _ h => absurd h List.not_mem_nil⟩
  trans := by
    rintro first _ _ ⟨lines, rfl, hlines⟩ ⟨more, rfl, hmore⟩
    refine ⟨lines ++ more, List.append_assoc first lines more, fun line hline => ?_⟩
    rcases List.mem_append.mp hline with h | h
    · exact hlines line h
    · exact hmore line h

end Gatehouse.Log
