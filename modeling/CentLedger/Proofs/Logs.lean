import Mathlib.Data.List.Induction

/-!
# Logs

Something that answers calls, one after another, leaves a log of them and their answers, to which entries are only added
at the end. What holds of log and state at first and is kept by one more call holds after any calls (`play_keeps`).
-/

namespace CentLedger

/-- A call and what it was answered. -/
structure Logbook.Entry {κ : Type} (Answer : κ → Type) where
  call : κ
  answer : Answer call

/-- Calls with their answers, in order. -/
abbrev Logbook {κ : Type} (Answer : κ → Type) := List (Logbook.Entry Answer)

namespace Logbook

variable {κ S α : Type} {Answer : κ → Type} {step : S → (c : κ) → Answer c × S} {start : S}

/-- One more call, and its answer in the log. -/
def playNext (step : S → (c : κ) → Answer c × S) (s : Logbook Answer × S) (c : κ) : Logbook Answer × S :=
  (s.1 ++ [⟨c, (step s.2 c).1⟩], (step s.2 c).2)

/-- Calls that are made one after another: their log, and the state after them. -/
def play (step : S → (c : κ) → Answer c × S) (start : S) (calls : List κ) : Logbook Answer × S :=
  calls.foldl (playNext step) ([], start)

theorem play_concat (calls : List κ) (c : κ) :
    play step start (calls ++ [c]) = playNext step (play step start calls) c := by
  rw [play, List.foldl_append]
  rfl

/-- What holds at first and is kept by one more call holds after any calls. -/
theorem play_keeps (P : Logbook Answer → S → Prop) (hstart : P [] start)
    (hstep : ∀ log s c, P log s → P (log ++ [⟨c, (step s c).1⟩]) (step s c).2) (calls : List κ) :
    P (play step start calls).1 (play step start calls).2 := by
  induction calls using List.reverseRecOn with
  | nil => exact hstart
  | append_singleton calls c ih =>
    rw [play_concat]
    exact hstep _ _ c ih

/-- What is read off a log with one more entry. -/
theorem filterMap_concat (f : Entry Answer → Option α) (log : Logbook Answer) (x : Entry Answer) :
    (log ++ [x]).filterMap f = log.filterMap f ++ (f x).toList := by
  rw [List.filterMap_append, List.filterMap_cons]
  cases f x <;> rfl

/-- An entry of which nothing is read changes nothing. -/
theorem filterMap_concat_none {f : Entry Answer → Option α} {log : Logbook Answer} {x : Entry Answer} (h : f x = none) :
    (log ++ [x]).filterMap f = log.filterMap f := by
  rw [filterMap_concat, h]
  exact List.append_nil _

end Logbook

end CentLedger
