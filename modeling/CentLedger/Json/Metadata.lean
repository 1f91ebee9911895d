import CentLedger.Json.Value

/-!
# Metadata

A finite map from texts to texts, kept as the list of its entries in strictly ascending order of keys, so that two
maps are equal iff their entries are. Inserting a key that is present replaces its value.
-/

namespace CentLedger

namespace Json

/-- The keys of a list of members ascend strictly. -/
def Sorted {α : Type} (members : List (String × α)) : Prop :=
  members.Pairwise fun a b => a.1 < b.1

theorem key_of_mem_insertMember {α : Type} {key : String} {value : α} {members : List (String × α)} {m : String × α}
    (h : m ∈ insertMember key value members) : m.1 = key ∨ m ∈ members := by
  induction members with
  | nil => simp [insertMember] at h; simp [h]
  | cons x rest ih =>
    obtain ⟨k, v⟩ := x
    unfold insertMember at h
    split at h
    · rcases List.mem_cons.1 h with rfl | h
      · exact .inl rfl
      · exact .inr (List.mem_cons_of_mem _ h)
    · split at h
      · rcases List.mem_cons.1 h with rfl | h
        · exact .inl rfl
        · exact .inr h
      · rcases List.mem_cons.1 h with rfl | h
        · exact .inr List.mem_cons_self
        · exact (ih h).imp_right (List.mem_cons_of_mem _)

/-- Inserting keeps the order of keys. -/
theorem sorted_insertMember {α : Type} (key : String) (value : α) {members : List (String × α)} (h : Sorted members) :
    Sorted (insertMember key value members) := by
  induction members with
  | nil => simp [insertMember, Sorted]
  | cons x rest ih =>
    obtain ⟨k, v⟩ := x
    obtain ⟨hk, hr⟩ := List.pairwise_cons.1 h
    unfold insertMember
    split
    · rename_i he
      subst he
      exact List.pairwise_cons.2 ⟨hk, hr⟩
    · split
      · rename_i hlt
        refine List.pairwise_cons.2 ⟨fun m hm => ?_, h⟩
        rcases List.mem_cons.1 hm with rfl | hm
        · exact hlt
        · exact String.lt_trans hlt (hk m hm)
      · rename_i hne hnlt
        refine List.pairwise_cons.2 ⟨fun m hm => ?_, ih hr⟩
        rcases key_of_mem_insertMember hm with he | hm
        · have : k < key := Std.lt_of_le_of_ne (Std.not_lt.1 hnlt) (Ne.symm hne)
          simpa [he] using this
        · exact hk m hm

/-- Sorting gives strictly ascending keys. -/
theorem sorted_sortMembers {α : Type} (members : List (String × α)) : Sorted (sortMembers members) := by
  unfold sortMembers
  suffices h : ∀ acc : List (String × α), Sorted acc →
      Sorted (members.foldl (fun sorted m => insertMember m.1 m.2 sorted) acc) from h [] List.Pairwise.nil
  induction members with
  | nil => exact fun _ h => h
  | cons m rest ih => exact fun acc h => ih _ (sorted_insertMember m.1 m.2 h)

end Json

/-- A finite map from texts to texts. -/
structure Metadata where
  entries : List (String × String)
  sorted : Json.Sorted entries

namespace Metadata

instance : DecidableEq Metadata := fun a b =>
  if h : a.entries = b.entries then isTrue (by cases a; cases b; cases h; rfl)
  else isFalse fun e => h (by rw [e])

/-- The map without entries. -/
def empty : Metadata :=
  ⟨[], List.Pairwise.nil⟩

/-- Bind a key. -/
def insert (m : Metadata) (key value : String) : Metadata :=
  ⟨Json.insertMember key value m.entries, Json.sorted_insertMember key value m.sorted⟩

/-- The map that a list of bindings makes; of a repeated key the last binding stays. -/
def ofList (bindings : List (String × String)) : Metadata :=
  ⟨Json.sortMembers bindings, Json.sorted_sortMembers bindings⟩

/-- The map as a JSON object. -/
def toJson (m : Metadata) : Json :=
  .obj (m.entries.map fun e => (e.1, .str e.2))

end Metadata

end CentLedger
