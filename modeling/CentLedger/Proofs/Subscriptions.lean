import CentLedger.Event.Bus
import Mathlib.Data.List.Nodup

/-!
# The subscriptions of a bus

What subscribing and unsubscribing do to the subscriptions of each type. A bus keeps one list for each type (`Keyed`).
Subscribing adds to the end of the list of a type, and unsubscribing takes one subscription out of it; the lists of all
other types stay as they are.
-/

namespace CentLedger

namespace Bus

variable {σ : Type} {b : Bus σ} {type : String}

/-- No type has two lists of subscriptions. -/
abbrev Keyed (b : Bus σ) : Prop :=
  (b.handlers.map (·.1)).Nodup

/-- The list of a type is the first that has its name. -/
theorem subscriptions_cons (t : String) (list : List (SubscriptionId × Handler σ))
    (rest : List (String × List (SubscriptionId × Handler σ))) (nextId : SubscriptionId) (type : String) :
    (Bus.mk ((t, list) :: rest) nextId).subscriptions type =
      if t = type then list else (Bus.mk rest nextId).subscriptions type := by
  by_cases h : t = type <;> simp [subscriptions, h]

/-! ## Subscribing -/

/-- The types that have a list after a subscription was added. -/
theorem keys_addHandler (type : String) (entry : SubscriptionId × Handler σ)
    (handlers : List (String × List (SubscriptionId × Handler σ))) :
    (addHandler type entry handlers).map (·.1) =
      if type ∈ handlers.map (·.1) then handlers.map (·.1) else handlers.map (·.1) ++ [type] := by
  induction handlers with
  | nil => rfl
  | cons h rest ih =>
    obtain ⟨t, list⟩ := h
    by_cases ht : t = type
    · simp [addHandler, ht]
    · have hne : ¬type = t := fun e => ht e.symm
      by_cases hmem : type ∈ rest.map (·.1)
      · rw [if_pos hmem] at ih
        simp only [addHandler, if_neg ht, List.map_cons, ih, List.mem_cons, hne, false_or, if_pos hmem]
      · rw [if_neg hmem] at ih
        simp only [addHandler, if_neg ht, List.map_cons, ih, List.mem_cons, hne, false_or, if_neg hmem,
          List.cons_append]

/-- A subscription leaves one list for each type. -/
theorem Keyed.subscribe (h : b.Keyed) (type : String) (handler : Handler σ) :
    (b.subscribe type handler).2.Keyed := by
  unfold Bus.subscribe
  split
  · exact h
  · unfold Keyed
    simp only [keys_addHandler]
    split
    · exact h
    · rename_i hnew
      exact h.append (List.nodup_singleton type) (List.disjoint_singleton.2 hnew)

/-- The subscriptions of a type after one was added. -/
theorem subscriptions_addHandler (type : String) (entry : SubscriptionId × Handler σ) (nextId : SubscriptionId)
    (handlers : List (String × List (SubscriptionId × Handler σ))) (other : String) :
    (Bus.mk (addHandler type entry handlers) nextId).subscriptions other =
      if type = other then (Bus.mk handlers nextId).subscriptions other ++ [entry]
      else (Bus.mk handlers nextId).subscriptions other := by
  induction handlers with
  | nil =>
    rw [addHandler, subscriptions_cons]
    rfl
  | cons h rest ih =>
    obtain ⟨t, list⟩ := h
    by_cases ht : t = type
    · subst ht
      simp only [addHandler, if_true, subscriptions_cons]
      split <;> rfl
    · have hstep : addHandler type entry ((t, list) :: rest) = (t, list) :: addHandler type entry rest := by
        rw [addHandler, if_neg ht]
      rw [hstep, subscriptions_cons, subscriptions_cons, ih]
      by_cases hto : t = other
      · have hne : ¬type = other := fun e => ht (hto.trans e.symm)
        simp only [if_pos hto, if_neg hne]
      · simp only [if_neg hto]

/-- A subscription is added at the end of the list of its type. -/
theorem subscriptions_subscribe (b : Bus σ) (hne : type ≠ "") (handler : Handler σ) (other : String) :
    (b.subscribe type handler).2.subscriptions other =
      if type = other then b.subscriptions other ++ [(b.nextId, handler)] else b.subscriptions other := by
  simp only [Bus.subscribe, if_neg hne]
  exact subscriptions_addHandler type (b.nextId, handler) _ b.handlers other

/-! ## Unsubscribing -/

/-- No type has two lists of subscriptions after one was removed, if none had before. -/
theorem keys_removeHandler (type : String) (id : SubscriptionId)
    (handlers : List (String × List (SubscriptionId × Handler σ))) :
    ((removeHandler type id handlers).map (·.1)).Sublist (handlers.map (·.1)) := by
  induction handlers with
  | nil => exact List.Sublist.refl _
  | cons h rest ih =>
    simp only [removeHandler]
    split
    · split
      · exact List.sublist_cons_self _ _
      · rename_i ht _
        simp [ht]
    · exact ih.cons_cons h.1

/-- The removal of a subscription leaves one list for each type. -/
theorem Keyed.unsubscribe (h : b.Keyed) (type : String) (id : SubscriptionId) : (b.unsubscribe type id).2.Keyed :=
  (keys_removeHandler type id b.handlers).nodup h

/-- A type without a list has no subscriptions. -/
theorem subscriptions_eq_nil (h : type ∉ b.handlers.map (·.1)) : b.subscriptions type = [] := by
  have hnone : (b.handlers.find? fun h => h.1 = type) = none := by
    refine List.find?_eq_none.2 fun x hx => ?_
    simp only [decide_eq_true_eq]
    exact fun he => h (List.mem_map.2 ⟨x, hx, he⟩)
  simp only [subscriptions, hnone, Option.map_none, Option.getD_none]

/-- The subscriptions of a type after one was removed. -/
theorem subscriptions_removeHandler (type : String) (id nextId : SubscriptionId)
    (handlers : List (String × List (SubscriptionId × Handler σ))) (hkeyed : (Bus.mk handlers nextId).Keyed)
    (other : String) :
    (Bus.mk (removeHandler type id handlers) nextId).subscriptions other =
      if type = other then ((Bus.mk handlers nextId).subscriptions other).filter fun h => h.1 ≠ id
      else (Bus.mk handlers nextId).subscriptions other := by
  induction handlers with
  | nil => split <;> rfl
  | cons h rest ih =>
    obtain ⟨t, list⟩ := h
    obtain ⟨hnew, hrest⟩ := List.nodup_cons.1 hkeyed
    by_cases ht : t = type
    · subst ht
      have hgone : (Bus.mk rest nextId).subscriptions t = [] := subscriptions_eq_nil hnew
      simp only [removeHandler, if_true, subscriptions_cons]
      split
      · -- the list goes with its last subscription, and no other list of the type comes to light
        rename_i hempty
        split
        · rename_i ho
          rw [← ho, hgone, List.isEmpty_iff.1 hempty]
        · rfl
      · rw [subscriptions_cons]
        split <;> rfl
    · have hstep : removeHandler type id ((t, list) :: rest) = (t, list) :: removeHandler type id rest := by
        rw [removeHandler, if_neg ht]
      rw [hstep, subscriptions_cons, subscriptions_cons, ih hrest]
      by_cases hto : t = other
      · have hne : ¬type = other := fun e => ht (hto.trans e.symm)
        simp only [if_pos hto, if_neg hne]
      · simp only [if_neg hto]

/-- The removal of a subscription takes it from the list of its type, and from no other. -/
theorem subscriptions_unsubscribe (hkeyed : b.Keyed) (type : String) (id : SubscriptionId) (other : String) :
    (b.unsubscribe type id).2.subscriptions other =
      if type = other then (b.subscriptions other).filter fun h => h.1 ≠ id else b.subscriptions other :=
  subscriptions_removeHandler type id b.nextId b.handlers hkeyed other

end Bus

end CentLedger
