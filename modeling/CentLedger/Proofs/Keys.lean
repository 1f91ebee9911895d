import Mathlib.Data.List.Nodup

/-!
# Finding by key

Lists whose members have a key. Where keys do not repeat, what is found under a key is the member that has it.
-/

namespace CentLedger

namespace Keyed

variable {α κ : Type} [DecidableEq κ] {key : α → κ} {members : List α} {k : κ} {a : α}

/-- What is found under a key is a member, and has this key. -/
theorem of_find? (h : (members.find? fun x => key x = k) = some a) : a ∈ members ∧ key a = k :=
  ⟨List.mem_of_find?_eq_some h, by simpa using List.find?_some h⟩

/-- Where nothing is found under a key, no member has it. -/
theorem not_mem_of_find? (h : (members.find? fun x => key x = k) = none) : k ∉ members.map key := by
  intro hmem
  obtain ⟨a, ha, rfl⟩ := List.mem_map.1 hmem
  exact List.find?_eq_none.1 h a ha (by simp)

/-- Where keys do not repeat, the member with a key is the one that is found. -/
theorem find?_eq_some (hnodup : (members.map key).Nodup) :
    (members.find? fun x => key x = k) = some a ↔ a ∈ members ∧ key a = k := by
  refine ⟨of_find?, ?_⟩
  rintro ⟨ha, rfl⟩
  obtain ⟨b, hb⟩ : ∃ b, (members.find? fun x => key x = key a) = some b :=
    Option.isSome_iff_exists.1 (List.find?_isSome.2 ⟨a, ha, by simp⟩)
  rw [hb, List.inj_on_of_nodup_map hnodup (of_find? hb).1 ha (of_find? hb).2]

/-! ## The members with a certain key are changed, and keep it -/

section Change

variable {f : α → α} {i : κ}

/-- A change that keeps the key of the members it is meant for keeps all keys. -/
theorem key_ite (hf : ∀ a, key a = i → key (f a) = i) (a : α) : key (if key a = i then f a else a) = key a := by
  split
  · rename_i ha
    rw [hf a ha, ha]
  · rfl

/-- A change of the members under one key leaves all keys as they are. -/
theorem keys_map_ite (key : α → κ) (f : α → α) {i : κ} (hf : ∀ a, key a = i → key (f a) = i) (members : List α) :
    (members.map fun a => if key a = i then f a else a).map key = members.map key := by
  rw [List.map_map]
  exact List.map_congr_left fun a _ => key_ite hf a

/-- It is what is found under that key that changes. -/
theorem find?_map_ite (key : α → κ) (f : α → α) {i : κ} (hf : ∀ a, key a = i → key (f a) = i) (members : List α)
    (k : κ) :
    ((members.map fun a => if key a = i then f a else a).find? fun a => key a = k) =
      if k = i then (members.find? fun a => key a = k).map f else members.find? fun a => key a = k := by
  rw [List.find?_map]
  simp only [Function.comp_def, key_ite hf]
  cases hfound : members.find? fun a => key a = k with
  | none => simp
  | some a =>
    simp only [Option.map_some, (of_find? hfound).2]
    split <;> rfl

/-- Where keys do not repeat, nothing changes if the member with the key is replaced by itself. -/
theorem map_ite_self (hnodup : (members.map key).Nodup) (hfound : (members.find? fun x => key x = k) = some a) :
    (members.map fun b => if key b = k then a else b) = members := by
  refine (List.map_congr_left fun b hb => ?_).trans (List.map_id _)
  split
  · rename_i hk
    exact (Option.some.inj (((find?_eq_some hnodup).2 ⟨hb, hk⟩).symm.trans hfound)).symm
  · rfl

end Change

/-- Without the members that have a certain key, none is found under it. -/
theorem find?_filter_ne (key : α → κ) (members : List α) (i k : κ) :
    ((members.filter fun a => key a ≠ i).find? fun a => key a = k) =
      if k = i then none else members.find? fun a => key a = k := by
  rw [List.find?_filter]
  split
  · rename_i hk
    exact List.find?_eq_none.2 fun a _ => by simp [hk]
  · rename_i hk
    congr 1
    funext a
    by_cases ha : key a = k <;> simp [ha, hk]

end Keyed

end CentLedger
