import CentLedger.Schedule.StandingOrder
import Mathlib.Data.List.Basic

/-!
# Records keep their fields in JSON

A canonical value has the members of its objects sorted, and a record finds its fields under any order of the members
(`slotsOfMembers_perm`). So a record that was written and made canonical is read back as it was: a standing order is, in
particular (`StandingOrder.ofJson?_canonical`).
-/

namespace CentLedger

namespace Json

variable {α : Type}

/-! ## Sorted members -/

/-- A member with a new key is put in its place, and the others stay as they are. -/
theorem insertMember_perm {key : String} (value : α) {members : List (String × α)}
    (hkey : key ∉ members.map (·.1)) : (insertMember key value members).Perm ((key, value) :: members) := by
  induction members with
  | nil => exact .refl _
  | cons x rest ih =>
    obtain ⟨k, v⟩ := x
    simp only [List.map_cons, List.mem_cons, not_or] at hkey
    unfold insertMember
    rw [if_neg hkey.1]
    split
    · exact .refl _
    · exact ((ih hkey.2).cons (k, v)).trans (.swap _ _ _)

/-- Sorting keeps the members if no key is repeated. -/
theorem sortMembers_perm {members : List (String × α)} (hnodup : (members.map (·.1)).Nodup) :
    (sortMembers members).Perm members := by
  suffices h : ∀ acc : List (String × α), (acc.map (·.1) ++ members.map (·.1)).Nodup →
      (members.foldl (fun sorted m => insertMember m.1 m.2 sorted) acc).Perm (acc ++ members) from h [] hnodup
  clear hnodup
  induction members with
  | nil => exact fun acc _ => by simp
  | cons m rest ih =>
    intro acc h
    have hkey : m.1 ∉ acc.map (·.1) := fun hmem =>
      (List.nodup_append.1 h).2.2 m.1 hmem m.1 List.mem_cons_self rfl
    have hinsert := insertMember_perm m.2 hkey
    have hkeys : ((insertMember m.1 m.2 acc).map (·.1) ++ rest.map (·.1)).Perm
        (acc.map (·.1) ++ (m :: rest).map (·.1)) :=
      ((hinsert.map (·.1)).append_right _).trans List.perm_middle.symm
    exact (ih _ (hkeys.nodup_iff.2 h)).trans ((hinsert.append_right rest).trans List.perm_middle.symm)

/-- What is found after inserting a member. -/
theorem find?_insertMember (key : String) (value : α) (members : List (String × α)) (k : String) :
    (insertMember key value members).find? (fun m => m.1 = k) =
      if key = k then some (key, value) else members.find? fun m => m.1 = k := by
  induction members with
  | nil => by_cases hk : key = k <;> simp [insertMember, hk]
  | cons x rest ih =>
    obtain ⟨k', v⟩ := x
    unfold insertMember
    split
    · rename_i he
      subst he
      by_cases hk : key = k <;> simp [hk]
    · rename_i hne
      split
      · by_cases hk : key = k <;> simp [List.find?_cons, hk]
      · by_cases hk : k' = k
        · subst hk
          simp [hne]
        · simpa [List.find?_cons, hk] using ih

/-- Sorted members have different keys. -/
theorem Sorted.nodup {members : List (String × α)} (h : Sorted members) : (members.map (·.1)).Nodup :=
  List.pairwise_map.2 (h.imp fun hlt => Std.ne_of_lt hlt)

/-- There is one way only to sort members. -/
theorem Sorted.eq_of_perm {members others : List (String × α)} (h : Sorted members) (h' : Sorted others)
    (hperm : members.Perm others) : members = others :=
  hperm.eq_of_pairwise (fun _ _ _ _ hab hba => absurd (String.lt_trans hab hba) (String.lt_irrefl _)) h h'

/-- What is sorted stays as it is. -/
theorem sortMembers_of_sorted {members : List (String × α)} (h : Sorted members) : sortMembers members = members :=
  (sorted_sortMembers members).eq_of_perm h (sortMembers_perm h.nodup)

/-- What an insertion leaves was there before, unless it is the inserted member. -/
theorem mem_insertMember {key : String} {value : α} {members : List (String × α)} {m : String × α}
    (h : m ∈ insertMember key value members) : m = (key, value) ∨ m ∈ members := by
  induction members with
  | nil => exact .inl (List.mem_singleton.1 h)
  | cons x rest ih =>
    obtain ⟨k, v⟩ := x
    unfold insertMember at h
    split at h
    · exact (List.mem_cons.1 h).imp_right (List.mem_cons_of_mem _)
    · split at h
      · exact List.mem_cons.1 h
      · rcases List.mem_cons.1 h with rfl | h
        · exact .inr List.mem_cons_self
        · exact (ih h).imp_right (List.mem_cons_of_mem _)

/-- Sorting makes up no members. -/
theorem mem_sortMembers {members : List (String × α)} {m : String × α} (h : m ∈ sortMembers members) : m ∈ members := by
  suffices hacc : ∀ acc : List (String × α),
      m ∈ members.foldl (fun sorted m => insertMember m.1 m.2 sorted) acc → m ∈ acc ∨ m ∈ members from
    (hacc [] h).resolve_left List.not_mem_nil
  clear h
  induction members with
  | nil => exact fun acc h => .inl h
  | cons x rest ih =>
    intro acc h
    rcases ih _ h with hacc | hrest
    · rcases mem_insertMember hacc with rfl | hacc
      · exact .inr List.mem_cons_self
      · exact .inl hacc
    · exact .inr (List.mem_cons_of_mem x hrest)

/-- The canonical form of a list of items, item by item. -/
theorem canonicalItems_eq (items : List Json) : canonicalItems items = items.map canonical := by
  induction items with
  | nil => rfl
  | cons x rest ih => rw [canonicalItems, ih, List.map_cons]

/-- The canonical form of a list of members, member by member. -/
theorem canonicalMembers_eq (members : List (String × Json)) :
    canonicalMembers members = members.map fun m => (m.1, m.2.canonical) := by
  induction members with
  | nil => rfl
  | cons m rest ih => rw [canonicalMembers, ih, List.map_cons]

/-! ## Slots -/

/-- The slot of a field, read from the members of an object. -/
def slotOf (members : List (String × Json)) (f : Field) : Option (Option Json) :=
  match members.filter fun m => m.1 = f.name with
  | [] =>
    match f.presence with
    | .required => none
    | .nullable => some (some null)
    | .defaulted => some none
  | [m] => some (some m.2)
  | _ => none

theorem slotsOfMembers_eq (fields : List Field) (members : List (String × Json)) :
    slotsOfMembers fields members = fields.mapM (slotOf members) := rfl

/-- The order of the members of an object does not matter to a slot. -/
theorem slotOf_perm {members others : List (String × Json)} (h : members.Perm others) (f : Field) :
    slotOf members f = slotOf others f := by
  have hf := h.filter fun m => decide (m.1 = f.name)
  unfold slotOf
  generalize (members.filter fun m => decide (m.1 = f.name)) = found at hf
  generalize (others.filter fun m => decide (m.1 = f.name)) = found' at hf
  rcases found with _ | ⟨m, _ | ⟨n, rest⟩⟩
  · rw [hf.nil_eq]
  · rw [List.singleton_perm.1 hf]
  · have hlen := hf.length_eq
    rcases found' with _ | ⟨m', _ | ⟨n', rest'⟩⟩
    · simp at hlen
    · simp at hlen
    · rfl

/-- The order of the members does not matter to a record. -/
theorem slotsOfMembers_perm (fields : List Field) {members others : List (String × Json)} (h : members.Perm others) :
    slotsOfMembers fields members = slotsOfMembers fields others := by
  rw [slotsOfMembers_eq, slotsOfMembers_eq, funext (slotOf_perm h)]

/-- A record finds the same in a canonical object as in the object itself, if that repeats no key and its values are
canonical. -/
theorem slots_canonical (fields : List Field) {members : List (String × Json)}
    (hnodup : (members.map (·.1)).Nodup) (hvalues : ∀ m ∈ members, m.2.canonical = m.2) :
    slots fields (canonical (.obj members)) = slots fields (.obj members) := by
  have hsame : canonicalMembers members = members := by
    rw [canonicalMembers_eq]
    exact (List.map_congr_left fun m hm => by rw [hvalues m hm]; rfl).trans (List.map_id _)
  show slotsOfMembers fields (sortMembers (canonicalMembers members)) = slotsOfMembers fields members
  rw [hsame]
  exact slotsOfMembers_perm fields (sortMembers_perm hnodup)

/-! ## Values of fields -/

@[simp] theorem asString?_str (s : String) : asString? (.str s) = some s := rfl

@[simp] theorem asWord?_ofWord (w : UInt64) : asWord? (ofWord w) = some w := by
  have hfits : (0 : Int) ≤ w.toNat ∧ (w.toNat : Int) < UInt64.size :=
    ⟨Int.natCast_nonneg _, by exact_mod_cast w.toNat_lt_size⟩
  rw [asWord?, ofWord, asNatBelow?, if_pos hfits, Int.toNat_natCast, Option.map_some, UInt64.ofNat_toNat]

@[simp] theorem asSignedWord?_ofSignedWord (w : Int64) : asSignedWord? (ofSignedWord w) = some w := by
  have hfits : Int64.minValue.toInt ≤ w.toInt ∧ w.toInt ≤ Int64.maxValue.toInt := ⟨w.minValue_le_toInt, w.toInt_le⟩
  simp only [ofSignedWord, asSignedWord?, if_pos hfits, Int64.ofInt_toInt]

@[simp] theorem asNullable?_ofWord (w : Option UInt64) : asNullable? asWord? (ofNullable ofWord w) = some w := by
  cases w with
  | none => rfl
  | some w =>
    show (asWord? (ofWord w)).map some = _
    rw [asWord?_ofWord]
    rfl

@[simp] theorem asWordOf?_kind (k : Kind) : asWordOf? Kind.ofText? (.str k.text) = some k := Kind.ofText?_text k

/-- Strings under their keys, as an object. -/
def ofEntries (entries : List (String × String)) : Json :=
  .obj (entries.map fun e => (e.1, .str e.2))

/-- Metadata is read back as it was, in whatever order its entries stand. -/
theorem asMetadata?_perm {m : Metadata} {entries : List (String × String)} (hperm : entries.Perm m.entries) :
    asMetadata? (ofEntries entries) = some m := by
  have hitems : ∀ entries : List (String × String),
      (entries.map fun e => (e.1, Json.str e.2)).mapM (fun m => (asString? m.2).map fun v => (m.1, v)) =
        some entries := by
    intro entries
    induction entries with
    | nil => rfl
    | cons e rest ih =>
      rw [List.map_cons, List.mapM_cons, ih]
      rfl
  obtain ⟨sorted, hsorted⟩ := m
  have hnodup : (entries.map (·.1)).Nodup := (hperm.map (·.1)).nodup_iff.2 hsorted.nodup
  have hentries : sortMembers entries = sorted :=
    (sorted_sortMembers entries).eq_of_perm hsorted ((sortMembers_perm hnodup).trans hperm)
  simp only [asMetadata?, ofEntries, hitems, Option.map_some, Metadata.ofList, hentries]

@[simp] theorem asMetadata?_toJson (m : Metadata) : asMetadata? m.toJson = some m :=
  asMetadata?_perm (.refl _)

/-! ## Canonical values -/

@[simp] theorem canonical_ofNullable_ofWord (w : Option UInt64) :
    (ofNullable ofWord w).canonical = ofNullable ofWord w := by
  cases w <;> rfl

/-- Metadata is written in canonical form. -/
@[simp] theorem canonical_metadata (m : Metadata) : m.toJson.canonical = m.toJson := by
  have hsame : canonicalMembers (m.entries.map fun e => (e.1, Json.str e.2)) =
      m.entries.map fun e => (e.1, Json.str e.2) := by
    rw [canonicalMembers_eq, List.map_map]
    rfl
  have hsorted : Sorted (m.entries.map fun e => (e.1, Json.str e.2)) := List.pairwise_map.2 m.sorted
  show Json.obj (sortMembers (canonicalMembers _)) = _
  rw [hsame, sortMembers_of_sorted hsorted]
  rfl

end Json

/-- A standing order is read back from its canonical value as it was. -/
theorem StandingOrder.ofJson?_canonical (o : StandingOrder) : StandingOrder.ofJson? o.toJson.canonical = some o := by
  have hslots : Json.slots fields o.toJson.canonical = Json.slots fields o.toJson := by
    have hnodup : (fields.map (·.name)).Nodup := by decide
    refine Json.slots_canonical fields hnodup ?_
    simp
    exact ⟨rfl, rfl, rfl, rfl⟩
  have hfound : Json.slots fields o.toJson = some [some (.str o.id), some (.str o.kind.text),
      some (Json.ofNullable Json.ofWord o.source), some (Json.ofNullable Json.ofWord o.target),
      some (Json.ofSignedWord o.amount), some (.str o.schedule), some o.metadata.toJson] := rfl
  rw [ofJson?, hslots, hfound]
  simp [ofSlots?]

end CentLedger
